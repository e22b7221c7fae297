import Palworld.Accounts.Handlers
import Palworld.Lib.Run

/-!
# The bootstrap password

A first start makes an administrator with a random password, which the memory of the process
keeps for the setup page until it is acknowledged. The mark of an acknowledgement is in the database.
-/

open Lib Lib.Db
open Palworld.Auth (UserRecord)
open Palworld.Database

namespace Palworld.Accounts

/-- The singleton `_bootstrap_state`. -/
structure BootstrapState where
  isPending : Bool
  username : Option Text
  password : Option Text

def freshState : BootstrapState := ⟨false, none, none⟩

/-- The value of `bootstrap_completed`, in the file and as the connection sees it. -/
structure Mark where
  stored : Option Text
  current : Option Text

/-- A process with its connection. The outcomes of the next statements are those of the connection. -/
structure Portal where
  users : Session Tables
  mark : Mark
  memory : BootstrapState

variable {α : Type}

def Portal.read (x : Call α) (p : Portal) : Except Failure α × Portal :=
  ((x.on p.users).1, { p with users := (x.on p.users).2 })

/-- A method that writes, and commits whatever the connection has open before it returns. One that raises may
have committed before that. -/
def Portal.write (x : Call α) (flushed : Bool) (p : Portal) : Except Failure α × Portal :=
  match x.on p.users with
  | (.ok a, s) => (.ok a, { p with users := s, mark := ⟨p.mark.current, p.mark.current⟩ })
  | (.error err, s) =>
    (.error err, { p with users := s, mark := if flushed then ⟨p.mark.current, p.mark.current⟩ else p.mark })

/-- `get_meta("bootstrap_completed")`, which takes an `OperationalError` for a missing key. -/
def Portal.getMeta (fails : Bool) (p : Portal) : Option Text := if fails then none else p.mark.current

/-- `set_meta("bootstrap_completed", value)`: the statement, then the commit. -/
def Portal.setMeta (value : Text) (p : Portal) : Except Failure Unit × Portal :=
  if p.users.Faulty then (.error (.sqlite .operational), { p with users := p.users.next })
  else
    let p := { p with users := p.users.next, mark := { p.mark with current := some value } }
    if p.users.Faulty then (.error (.sqlite .operational), { p with users := p.users.next })
    else
      (.ok (), { p with users := { p.users.next with stored := p.users.current }, mark := ⟨p.mark.current, p.mark.current⟩ })

def countUsers : Call Nat := query fun t => t.users.length

def listUsers : Call (List UserRecord) := query fun t => t.users.map rowToUser

/-! ## The functions of `database/auth.py` -/

/-- What the code takes from outside: the hash and its check, a random password and the clock. -/
structure Environment where
  hashPassword : Text → Text × Text
  verifyPassword : Text → Text → Text → Bool
  tokenUrlsafe : Text
  now : Text

def setBootstrapPending (username password : Text) (p : Portal) : Portal :=
  { p with memory := ⟨true, some username, some password⟩ }

def acknowledgeBootstrap (p : Portal) : Except Failure Unit × Portal :=
  ({ p with memory := freshState } : Portal).setMeta (lit "true")

def adminUser (env : Environment) (password : Text) : NewUser :=
  ⟨lit "admin", (env.hashPassword password).1, (env.hashPassword password).2, lit "admin@localhost", lit "admin", true, env.now⟩

/-- The credentials are put in memory if they were generated and no acknowledgement is read. -/
def offerCredentials (generated : Bool) (password : Text) (metaFails : Bool) (p : Portal) : Portal :=
  if generated && (p.getMeta metaFails).isNone then setBootstrapPending (lit "admin") password p else p

/-- `bootstrap_admin_user`, apart from the file with the credentials that it writes. -/
def bootstrapAdminUser (env : Environment) (defaultPassword : Option Text) (flushed metaFails : Bool) (p : Portal) :
    Except Failure (Option UserRecord) × Portal :=
  match p.read (getUserByUsername (lit "admin")) with
  | (.error err, p) => (.error err, p)
  | (.ok (some existing), p) => (.ok (some existing), p)
  | (.ok none, p) =>
    match p.read countUsers with
    | (.error err, p) => (.error err, p)
    | (.ok 0, p) =>
      let isGenerated := (defaultPassword.getD []).isEmpty
      let password := if isGenerated then env.tokenUrlsafe else defaultPassword.getD []
      match p.write (createUser (adminUser env password)) flushed with
      | (.error err, p) => (.error err, p)
      | (.ok user, p) => (.ok (some user), offerCredentials isGenerated password metaFails p)
    | (.ok _, p) =>
      match p.read listUsers with
      | (.error err, p) => (.error err, p)
      | (.ok users, p) => (.ok users.head?, p)

/-! ## The handlers of `routers/auth.py` -/

inductive Response
  | credentials (username password : Option Text)
  | acknowledged
  | loggedIn (username role : Text) (permissions : List Text)
  | status (code : Nat)
  | raised (err : Failure)
  | done
  deriving DecidableEq

def getBootstrapCredentials (p : Portal) : Response :=
  if p.memory.isPending then .credentials p.memory.username p.memory.password else .status 404

def acknowledgeBootstrapCredentials (p : Portal) : Response × Portal :=
  if p.memory.isPending then
    match acknowledgeBootstrap p with
    | (.ok (), p) => (.acknowledged, p)
    | (.error err, p) => (.raised err, p)
  else (.status 409, p)

def recordLoginAudit : Call Unit := writeElsewhere 1

/-- The end of a login whose password was right. -/
def finishLogin (user : UserRecord) (p : Portal) : Response × Portal :=
  match p.read (getUserPermissions user.id) with
  | (.ok permissions, p) => (.loggedIn user.username user.role permissions, p)
  | (.error err, p) => (.raised err, p)

def acknowledgeOnLogin (user : UserRecord) (p : Portal) : Except Failure Unit × Portal :=
  if p.memory.isPending && user.role = lit "admin" then acknowledgeBootstrap p else (.ok (), p)

def login (env : Environment) (username password : Text) (flushed : Bool) (p : Portal) : Response × Portal :=
  match p.read (getUserByUsername username) with
  | (.error err, p) => (.raised err, p)
  | (.ok found, p) =>
    match found.filter fun user => user.isActive && env.verifyPassword password user.salt user.passwordHash with
    | none =>
      match p.write recordLoginAudit flushed with
      | (.ok (), p) => (.status 401, p)
      | (.error err, p) => (.raised err, p)
    | some user =>
      match p.write recordLoginAudit flushed with
      | (.error err, p) => (.raised err, p)
      | (.ok (), p) =>
        match p.write (updateUserLastLogin user.id env.now) flushed with
        | (.error err, p) => (.raised err, p)
        | (.ok (), p) =>
          match acknowledgeOnLogin user p with
          | (.error err, p) => (.raised err, p)
          | (.ok (), p) => finishLogin user p

/-! ## Runs -/

/-- The events of one database, with the outcomes of the statements of each. -/
inductive Event
  | start
  | bootstrap (env : Environment) (defaultPassword : Option Text) (flushed metaFails : Bool) (faults : List Bool)
  | getCredentials
  | acknowledge (faults : List Bool)
  | login (env : Environment) (username password : Text) (flushed : Bool) (faults : List Bool)
  | deleteUser (userId : Int) (flushed : Bool) (faults : List Bool)

def Portal.begin (p : Portal) (faults : List Bool) : Portal := { p with users := ⟨p.users.stored, p.users.current, faults⟩ }

/-- What is left of a process when the next one starts: the file. -/
def Portal.restart (p : Portal) : Portal :=
  ⟨⟨p.users.stored, p.users.stored, []⟩, ⟨p.mark.stored, p.mark.stored⟩, freshState⟩

def answer {α : Type} (result : Except Failure α) : Response :=
  match result with
  | .ok _ => .done
  | .error err => .raised err

def Portal.handle (p : Portal) : Event → Response × Portal
  | .start => (.done, p.restart)
  | .bootstrap env defaultPassword flushed metaFails faults =>
    let out := bootstrapAdminUser env defaultPassword flushed metaFails (p.begin faults)
    (answer out.1, out.2)
  | .getCredentials => (getBootstrapCredentials p, p)
  | .acknowledge faults => acknowledgeBootstrapCredentials (p.begin faults)
  | .login env username password flushed faults => Accounts.login env username password flushed (p.begin faults)
  | .deleteUser userId flushed faults =>
    let out := (p.begin faults).write (Database.deleteUser userId) flushed
    (answer out.1, out.2)

/-- An acknowledgement, or the login of an administrator, has completed. -/
def Response.completes : Response → Bool
  | .acknowledged => true
  | .loggedIn _ role _ => role = lit "admin"
  | _ => false

/-- A portal, with what has happened: something has completed, and it did so without leaving a mark. -/
structure Watched where
  portal : Portal
  completed : Bool
  unsealed : Bool

def Watched.next (w : Watched) (event : Event) : Watched :=
  let (response, p) := w.portal.handle event
  ⟨p, w.completed || response.completes, w.unsealed || (response.completes && p.mark.stored.isNone)⟩

def Happens (w : Watched) (event : Event) (w' : Watched) : Prop := w' = w.next event

def Unwatched (w : Watched) : Prop :=
  w.completed = false ∧ w.unsealed = false ∧ (w.portal.mark.stored.isSome → w.portal.mark.current.isSome)

/-- After something has completed, a bootstrap that would make up a password reads the mark, and nothing completed
without leaving one. -/
def ReadsMark (w : Watched) : Event → Prop
  | .bootstrap _ defaultPassword _ metaFails _ =>
    w.completed → w.portal.users.current.users = [] → defaultPassword.getD [] = [] → metaFails = false ∧ w.unsealed = false
  | _ => True

/-! ## What a handler does to the mark and to the memory -/

/-- The connection sees the mark if the file has it. -/
def Mark.Seen (m : Mark) : Prop := m.stored.isSome → m.current.isSome

/-- A mark is not lost. -/
def Mark.KeptIn (m m' : Mark) : Prop := m.Seen → m'.Seen ∧ (m.stored.isSome → m'.stored.isSome)

theorem Mark.KeptIn.refl (m : Mark) : m.KeptIn m := fun h => ⟨h, id⟩

theorem Mark.KeptIn.trans {m₁ m₂ m₃ : Mark} (h : m₁.KeptIn m₂) (k : m₂.KeptIn m₃) : m₁.KeptIn m₃ := by
  intro hseen
  obtain ⟨hseen₂, hstored⟩ := h hseen
  obtain ⟨hseen₃, hstored'⟩ := k hseen₂
  exact ⟨hseen₃, hstored' ∘ hstored⟩

theorem Mark.keptIn_flushed (m : Mark) : m.KeptIn ⟨m.current, m.current⟩ := fun h => ⟨id, h⟩

/-- A call that leaves the memory alone, and of the mark at most stores what the connection sees. -/
structure Quiet (p p' : Portal) : Prop where
  memory : p'.memory = p.memory
  current : p'.mark.current = p.mark.current
  mark : p.mark.KeptIn p'.mark

variable {p p' q : Portal} {α : Type} {x : Call α} {flushed : Bool}

theorem Quiet.trans (h : Quiet p q) (k : Quiet q p') : Quiet p p' :=
  ⟨k.memory.trans h.memory, k.current.trans h.current, h.mark.trans k.mark⟩

theorem read_quiet (x : Call α) (p : Portal) : Quiet p (p.read x).2 := ⟨rfl, rfl, .refl _⟩

theorem write_quiet (x : Call α) (flushed : Bool) (p : Portal) : Quiet p (p.write x flushed).2 := by
  unfold Portal.write
  split
  · exact ⟨rfl, rfl, Mark.keptIn_flushed _⟩
  · cases flushed
    · exact ⟨rfl, rfl, .refl _⟩
    · exact ⟨rfl, rfl, Mark.keptIn_flushed _⟩

theorem quiet_of_read {result : Except Failure α} (h : p.read x = (result, q)) : Quiet p q := by
  have := read_quiet x p
  rwa [h] at this

theorem quiet_of_write {result : Except Failure α} (h : p.write x flushed = (result, q)) : Quiet p q := by
  have := write_quiet x flushed p
  rwa [h] at this

theorem acknowledgeBootstrap_spec (p : Portal) :
    (acknowledgeBootstrap p).2.memory = freshState ∧ p.mark.KeptIn (acknowledgeBootstrap p).2.mark := by
  unfold acknowledgeBootstrap Portal.setMeta
  split
  · exact ⟨rfl, .refl _⟩
  · dsimp only
    split
    · exact ⟨rfl, fun _ => ⟨fun _ => rfl, id⟩⟩
    · exact ⟨rfl, fun _ => ⟨fun _ => rfl, fun _ => rfl⟩⟩

theorem read_query_ok {f : Tables → α} {a : α} (h : p.read (query f) = (.ok a, q)) :
    a = f p.users.current ∧ q.users.current = p.users.current := by
  unfold Portal.read at h
  rw [on_query] at h
  split at h
  · cases h
  · cases h
    exact ⟨rfl, rfl⟩

theorem Quiet.mark_or (h : Quiet p p') (c : Prop) : p.mark.KeptIn p'.mark ∧ (p'.memory = p.memory ∨ c) :=
  ⟨h.mark, .inl h.memory⟩

/-- A bootstrap leaves the memory alone, or it found no user, made up a password and read no mark. -/
theorem bootstrapAdminUser_spec (env : Environment) (defaultPassword : Option Text) (flushed metaFails : Bool) (p : Portal) :
    p.mark.KeptIn (bootstrapAdminUser env defaultPassword flushed metaFails p).2.mark ∧
      ((bootstrapAdminUser env defaultPassword flushed metaFails p).2.memory = p.memory ∨
        p.users.current.users = [] ∧ defaultPassword.getD [] = [] ∧ p.getMeta metaFails = none) := by
  unfold bootstrapAdminUser
  split
  · rename_i hread
    exact (quiet_of_read hread).mark_or _
  · rename_i hread
    exact (quiet_of_read hread).mark_or _
  · rename_i q hread
    have hq := quiet_of_read hread
    split
    · rename_i hcount
      exact (hq.trans (quiet_of_read hcount)).mark_or _
    · rename_i q' hcount
      have hempty : p.users.current.users = [] := by
        rw [← (read_query_ok hread).2]
        exact List.length_eq_zero_iff.mp (read_query_ok hcount).1.symm
      have hq' := hq.trans (quiet_of_read hcount)
      dsimp only
      split
      · rename_i hwrite
        exact (hq'.trans (quiet_of_write hwrite)).mark_or _
      · rename_i p' hwrite
        have hp' := hq'.trans (quiet_of_write hwrite)
        unfold offerCredentials
        split
        -- The branch that puts the password in memory.
        · rename_i hoffer
          simp only [Bool.and_eq_true, List.isEmpty_iff, Option.isNone_iff_eq_none] at hoffer
          refine ⟨hp'.mark, .inr ⟨hempty, hoffer.1, ?_⟩⟩
          have hnone := hoffer.2
          unfold Portal.getMeta at hnone ⊢
          rwa [hp'.current] at hnone
        · exact hp'.mark_or _
    · rename_i q' hcount
      have hq' := hq.trans (quiet_of_read hcount)
      split
      · rename_i hlist
        exact (hq'.trans (quiet_of_read hlist)).mark_or _
      · rename_i hlist
        exact (hq'.trans (quiet_of_read hlist)).mark_or _

/-- What a request does: no mark is lost, no credentials are put in memory, and none are there when it completes. -/
structure Request (p : Portal) (response : Response) (p' : Portal) : Prop where
  mark : p.mark.KeptIn p'.mark
  memory : p'.memory.isPending = true → p.memory.isPending = true
  completes : response.completes = true → p'.memory.isPending = false

theorem Quiet.request {response : Response} (h : Quiet p p') (hresponse : response.completes = false) :
    Request p response p' :=
  ⟨h.mark, fun hp => h.memory ▸ hp, fun hcompletes => by simp [hresponse] at hcompletes⟩

theorem Quiet.then {response : Response} (h : Quiet p q) (k : Request q response p') : Request p response p' :=
  ⟨h.mark.trans k.mark, fun hp => h.memory ▸ k.memory hp, k.completes⟩

theorem acknowledge_request (p : Portal) :
    Request p (acknowledgeBootstrapCredentials p).1 (acknowledgeBootstrapCredentials p).2 := by
  obtain ⟨hmemory, hmark⟩ := acknowledgeBootstrap_spec p
  unfold acknowledgeBootstrapCredentials
  split
  · split <;> rename_i hacknowledge <;> rw [hacknowledge] at hmemory hmark <;> dsimp only at hmemory hmark
    · exact ⟨hmark, fun h => by simp [hmemory, freshState] at h, fun _ => by simp [hmemory, freshState]⟩
    · exact ⟨hmark, fun h => by simp [hmemory, freshState] at h, fun h => by cases h⟩
  · exact ⟨.refl _, id, fun h => by cases h⟩

theorem acknowledgeOnLogin_request (user : UserRecord) (p : Portal) :
    p.mark.KeptIn (acknowledgeOnLogin user p).2.mark ∧
      ((acknowledgeOnLogin user p).2.memory.isPending = true → p.memory.isPending = true ∧ user.role ≠ lit "admin") := by
  obtain ⟨hmemory, hmark⟩ := acknowledgeBootstrap_spec p
  unfold acknowledgeOnLogin
  split
  · exact ⟨hmark, fun h => by simp [hmemory, freshState] at h⟩
  · rename_i hnot
    refine ⟨.refl _, fun h => ⟨h, fun hrole => hnot ?_⟩⟩
    rw [decide_eq_true hrole, Bool.and_true]
    exact h

theorem login_request (env : Environment) (username password : Text) (flushed : Bool) (p : Portal) :
    Request p (login env username password flushed p).1 (login env username password flushed p).2 := by
  unfold login
  split
  · rename_i hread
    exact (quiet_of_read hread).request rfl
  rename_i found q hread
  refine (quiet_of_read hread).then ?_
  split
  · split <;> rename_i haudit <;> exact (quiet_of_write haudit).request rfl
  rename_i user _
  split
  · rename_i haudit
    exact (quiet_of_write haudit).request rfl
  rename_i q haudit
  refine (quiet_of_write haudit).then ?_
  split
  · rename_i hlogin
    exact (quiet_of_write hlogin).request rfl
  rename_i q hlogin
  refine (quiet_of_write hlogin).then ?_
  obtain ⟨hmark, hpending⟩ := acknowledgeOnLogin_request user q
  split <;> rename_i hacknowledge <;> rw [hacknowledge] at hmark hpending <;> dsimp only at hmark hpending
  · exact ⟨hmark, fun h => (hpending h).1, fun h => by cases h⟩
  -- The response names the role, and an administrator's login has acknowledged.
  · unfold finishLogin
    split <;> rename_i hread <;> have hquiet := quiet_of_read hread
    · refine ⟨hmark.trans hquiet.mark, fun h => (hpending (hquiet.memory ▸ h)).1, fun h => ?_⟩
      rw [hquiet.memory, Bool.eq_false_iff]
      exact fun hp => (hpending hp).2 (of_decide_eq_true h)
    · exact ⟨hmark.trans hquiet.mark, fun h => (hpending (hquiet.memory ▸ h)).1, fun h => by cases h⟩

/-! ## What a run keeps -/

/-- Once something has completed nothing is offered, and it has left a mark unless it was noted that it did not. -/
structure Sealed (w : Watched) : Prop where
  seen : w.portal.mark.Seen
  offered : w.completed = true → w.portal.memory.isPending = false
  marked : w.completed = true → w.unsealed = true ∨ w.portal.mark.stored.isSome

/-- A bootstrap that is allowed after something has completed leaves the memory alone. -/
theorem bootstrap_allowed {w : Watched} {env : Environment} {defaultPassword : Option Text} {flushed metaFails : Bool}
    {faults : List Bool} (hw : Sealed w) (hcompleted : w.completed = true)
    (hallowed : ReadsMark w (.bootstrap env defaultPassword flushed metaFails faults)) :
    (bootstrapAdminUser env defaultPassword flushed metaFails (w.portal.begin faults)).2.memory = w.portal.memory := by
  rcases (bootstrapAdminUser_spec env defaultPassword flushed metaFails (w.portal.begin faults)).2 with
    hmemory | ⟨husers, hgenerated, hmeta⟩
  · exact hmemory
  · obtain ⟨rfl, hunsealed⟩ := hallowed hcompleted husers hgenerated
    have hstored := (hw.marked hcompleted).resolve_left (by simp [hunsealed])
    have hcurrent := hw.seen hstored
    have hnone : w.portal.mark.current = none := hmeta
    simp [hnone] at hcurrent

theorem handle_mark (p : Portal) (event : Event) (hp : p.mark.Seen) :
    (p.handle event).2.mark.Seen ∧ (p.mark.stored.isSome → (p.handle event).2.mark.stored.isSome) := by
  cases event with
  | start => exact ⟨id, id⟩
  | bootstrap env defaultPassword flushed metaFails faults =>
    exact (bootstrapAdminUser_spec env defaultPassword flushed metaFails (p.begin faults)).1 hp
  | getCredentials => exact ⟨hp, id⟩
  | acknowledge faults => exact (acknowledge_request (p.begin faults)).mark hp
  | login env username password flushed faults => exact (login_request env username password flushed (p.begin faults)).mark hp
  | deleteUser userId flushed faults => exact (write_quiet (Database.deleteUser userId) flushed (p.begin faults)).mark hp

theorem handle_offered {w : Watched} {event : Event} (hw : Sealed w) (hallowed : ReadsMark w event)
    (h : w.completed = true ∨ (w.portal.handle event).1.completes = true) :
    (w.portal.handle event).2.memory.isPending = false := by
  have hrequest : ∀ (p : Portal) {response : Response} {p' : Portal}, p.memory = w.portal.memory →
      Request p response p' → w.completed = true ∨ response.completes = true → p'.memory.isPending = false := by
    rintro p response p' hmemory hrequest (hcompleted | hcompletes)
    · rw [Bool.eq_false_iff]
      intro hpending
      have hbefore := hw.offered hcompleted
      rw [← hmemory, hrequest.memory hpending] at hbefore
      cases hbefore
    · exact hrequest.completes hcompletes
  cases event with
  | start => rfl
  | bootstrap env defaultPassword flushed metaFails faults =>
    rcases h with hcompleted | hcompletes
    · exact (congrArg BootstrapState.isPending (bootstrap_allowed hw hcompleted hallowed)).trans (hw.offered hcompleted)
    · unfold Portal.handle answer at hcompletes
      dsimp only at hcompletes
      split at hcompletes <;> cases hcompletes
  | getCredentials =>
    rcases h with hcompleted | hcompletes
    · exact hw.offered hcompleted
    · unfold Portal.handle getBootstrapCredentials at hcompletes
      dsimp only at hcompletes
      split at hcompletes <;> cases hcompletes
  | acknowledge faults => exact hrequest (w.portal.begin faults) rfl (acknowledge_request _) h
  | login env username password flushed faults =>
    exact hrequest (w.portal.begin faults) rfl (login_request env username password flushed _) h
  | deleteUser userId flushed faults =>
    rcases h with hcompleted | hcompletes
    · exact (congrArg BootstrapState.isPending (write_quiet _ _ (w.portal.begin faults)).memory).trans
        (hw.offered hcompleted)
    · unfold Portal.handle answer at hcompletes
      dsimp only at hcompletes
      split at hcompletes <;> cases hcompletes

theorem next_sealed {w : Watched} {event : Event} (hallowed : ReadsMark w event) (hw : Sealed w) :
    Sealed (w.next event) := by
  obtain ⟨hseen, hstored⟩ := handle_mark w.portal event hw.seen
  refine ⟨hseen, fun h => ?_, fun h => ?_⟩
  · exact handle_offered hw hallowed (by simpa [Watched.next] using h)
  · unfold Watched.next at h ⊢
    simp only [Bool.or_eq_true, Bool.and_eq_true] at h ⊢
    rcases h with hcompleted | hcompletes
    · rcases hw.marked hcompleted with hunsealed | hmarked
      · exact .inl (.inl hunsealed)
      · exact .inr (hstored hmarked)
    · cases hmark : (w.portal.handle event).2.mark.stored with
      | none => exact .inl (.inr ⟨hcompletes, rfl⟩)
      | some mark => exact .inr rfl

/-- **The bootstrap password stays sealed.** Once an acknowledgement or an administrator's login has completed, the
credentials are answered with 404, as long as every bootstrap after it that finds no user and is given no password
reads the mark, and nothing has completed without leaving one. -/
theorem bootstrap_password_sealed {w : Watched} (h : Reachable Unwatched (Only Happens ReadsMark) w)
    (hcompleted : w.completed = true) : getBootstrapCredentials w.portal = .status 404 := by
  have hsealed : Sealed w := by
    refine h.invariant ?_ ?_
    · rintro w ⟨hcompleted, hunsealed, hseen⟩
      exact ⟨hseen, fun h => by simp [hcompleted] at h, fun h => by simp [hcompleted] at h⟩
    · rintro w event _ hw ⟨rfl, hallowed⟩
      exact next_sealed hallowed hw
  unfold getBootstrapCredentials
  rw [hsealed.offered hcompleted]
  rfl

/-! ## Two runs -/

def firstEnvironment : Environment where
  hashPassword _ :=
    (lit "2079c50f47591a471c6ab713cd08c6307fa49fe7bd2c43d4b7981c927215250b", lit "5b1f9c0e7a2d4836b05e1c9f8d7a6243")
  verifyPassword plainPassword salt passwordHash :=
    plainPassword = lit "mV3xk0Z-rT5qWc8uJ1dYb6hLs2E" ∧ salt = lit "5b1f9c0e7a2d4836b05e1c9f8d7a6243" ∧
      passwordHash = lit "2079c50f47591a471c6ab713cd08c6307fa49fe7bd2c43d4b7981c927215250b"
  tokenUrlsafe := lit "mV3xk0Z-rT5qWc8uJ1dYb6hLs2E"
  now := lit "2025-01-01T00:00:00+00:00"

def secondEnvironment : Environment :=
  { firstEnvironment with
    hashPassword := fun _ =>
      (lit "5fd077fad1d0e6c71603494fa9bcbb9fcbe5254e69ab2ca665aad9d82d2659b0", lit "c3d2e1f0a9b8c7d6e5f4031221304f5e")
    tokenUrlsafe := lit "Qp7_nA4fGk9eUz2iXo5tBw1rMv8" }

def emptyPortal : Watched := ⟨⟨⟨emptyTables, emptyTables, []⟩, ⟨none, none⟩, freshState⟩, false, false⟩

def adminLogin : Event := .login firstEnvironment (lit "admin") firstEnvironment.tokenUrlsafe false []

def firstBootstrap : Event := .bootstrap firstEnvironment none false false []

def Watched.after (w : Watched) (events : List Event) : Watched := events.foldl Watched.next w

/-- The condition holds at every event of a run. -/
def Allowed (cond : Watched → Event → Prop) (w : Watched) : List Event → Prop
  | [] => True
  | event :: events => cond w event ∧ Allowed cond (w.next event) events

theorem run_after (cond : Watched → Event → Prop) (events : List Event) (w : Watched) (h : Allowed cond w events) :
    Run (Only Happens cond) w events (w.after events) := by
  induction events generalizing w with
  | nil => exact .nil w
  | cons event events ih => exact .cons ⟨rfl, h.1⟩ (ih _ h.2)

/-- An administrator logs in while the credentials are offered; all users are deleted later. -/
def markedRun : List Event :=
  [firstBootstrap, adminLogin, .deleteUser 1 false [], .start, .bootstrap secondEnvironment none false false []]

theorem marked_login_seals : getBootstrapCredentials (emptyPortal.after markedRun).portal = .status 404 := by
  have hallowed : Allowed ReadsMark emptyPortal markedRun :=
    have hmarked : (emptyPortal.after (markedRun.take 4)).unsealed = false := by decide +kernel
    ⟨fun h => absurd h (by decide), trivial, trivial, trivial, fun _ _ _ => ⟨rfl, hmarked⟩, trivial⟩
  have hcompleted : (emptyPortal.after markedRun).completed = true := by decide +kernel
  exact bootstrap_password_sealed ⟨emptyPortal, markedRun, ⟨rfl, rfl, id⟩, run_after _ _ _ hallowed⟩ hcompleted

/-- The administrator logs in after a restart, when nothing is offered; all users are deleted later. -/
def unmarkedRun : List Event :=
  [firstBootstrap, .start, firstBootstrap, adminLogin, .deleteUser 1 false [], .start,
    .bootstrap secondEnvironment none false false []]

/-- A login that completes while nothing is offered leaves no mark, and the next bootstrap offers a password again. -/
theorem unmarked_login_reopens :
    ¬ ∀ w, Reachable Unwatched Happens w → w.completed = true → getBootstrapCredentials w.portal = .status 404 := by
  intro h
  have hrun : Run Happens emptyPortal unmarkedRun (emptyPortal.after unmarkedRun) :=
    (run_after (fun _ _ => True) unmarkedRun emptyPortal
      ⟨trivial, trivial, trivial, trivial, trivial, trivial, trivial, trivial⟩).of_only
  have hcompleted : (emptyPortal.after unmarkedRun).completed = true := by decide +kernel
  have hoffered : getBootstrapCredentials (emptyPortal.after unmarkedRun).portal ≠ .status 404 := by decide +kernel
  exact hoffered (h _ ⟨emptyPortal, unmarkedRun, ⟨rfl, rfl, id⟩, hrun⟩ hcompleted)

end Palworld.Accounts

import Palworld.Lib.Json
import Palworld.Lib.Run
import Palworld.Lib.WorkQueue
import Mathlib.Data.List.ReduceOption

/-!
# The log mirror

`DiscordLogHandler` puts what is logged into a queue of 200, and a thread posts it to a webhook.
Any thread may log, flush or close meanwhile.
-/

open Lib

namespace Palworld.Logs

/-! ## The time to wait -/

/-- What the body of a response is as JSON. -/
inductive Body
  | malformed  -- the `ValueError` of `res.json()`
  | json (value : JsonValue)

/-- What ends the worker: no handler of its loop takes these. -/
inductive Uncaught
  | attributeError
  | typeError
  | valueError
  | overflowError
  | other
  deriving DecidableEq

section Wait

variable [Unicode]

/-- `float(value)`. -/
def floatOf : JsonValue → Except Uncaught Binary64
  | .null | .array _ | .object _ => .error .typeError
  | .bool b => .ok (Binary64.round false (if b then 1 else 0))
  | .int n =>
    match Binary64.round (decide (n.val < 0)) n.val.natAbs with
    | .infinite _ => .error .overflowError
    | x => .ok x
  | .float x => .ok x
  | .str s =>
    match s.toText?.bind pyFloat with
    | some x => .ok x
    | none => .error .valueError

/-- `parse_discord_retry_after`. It catches a `ValueError`, and a JSON value that is no object has no `get`. -/
def parseDiscordRetryAfter : Body → Except Uncaught Binary64
  | .malformed => .ok (Binary64.round false 2)
  | .json (.object fields) =>
    match floatOf ((lookup (PyStr.ofText (lit "retry_after")) fields).getD (.float (Binary64.round false (3 / 2)))) with
    | .error .valueError => .ok (Binary64.round false 2)
    | result => result
  | .json _ => .error .attributeError

end Wait

/-- `time.sleep`. It counts in nanoseconds of 64 bits. -/
def sleep : Binary64 → Except Uncaught Unit
  | .nan => .error .valueError
  | .infinite _ => .error .overflowError
  | .finite neg mag =>
    if neg ∧ mag.significand ≠ 0 then .error .valueError
    else
      match Binary64.round false (mag.toRat * 10 ^ 9) with
      | .finite _ nanoseconds => if nanoseconds.toRat < 9223372036854775808 then .ok () else .error .overflowError
      | _ => .error .overflowError

/-! ## What is put into the queue -/

/-- A record as `emit` reads it. `none` for what `self.format(record)` raises. -/
structure MirrorRecord where
  formatted : Option Text
  name : Text
  levelname : Text
  levelno : Int
  filename : Text
  lineno : Nat
  traceback : Option Text  -- the lines of `record.exc_info`, joined
  timestamp : Text

structure EmbedField where
  name : Text
  value : Text
  inline : Bool
  deriving DecidableEq

structure Payload where
  content : Option Text
  title : Text
  description : Text
  color : Nat
  fields : List EmbedField
  timestamp : Text
  deriving DecidableEq

structure DiscordLogHandler where
  webhookUrl : Text
  criticalPing : Text

/-- The color, the title and the content for a level. -/
def urgency [Unicode] (handler : DiscordLogHandler) (record : MirrorRecord) : Nat × Text × Text :=
  if record.levelno ≥ 50 then (0x990000, "🚨🚨 [CRITICAL ALERT] ".toList ++ record.name, handler.criticalPing)
  else if record.levelno ≥ 40 then (0xEF4444, "🚨 [ERROR] ".toList ++ record.name, [])
  else if record.levelno ≥ 30 then (0xF59E0B, "⚠️ [WARNING] ".toList ++ record.name, [])
  else (0x3B82F6, '[' :: (upper record.levelname ++ lit "] " ++ record.name), [])

def codeBlock (t : Text) : Text := lit "```" ++ t ++ lit "```"

def tracebackField (traceback : Text) : EmbedField :=
  ⟨lit "Traceback", lit "```python\n" ++ traceback.drop (traceback.length - 800) ++ lit "\n```", false⟩

/-- What `emit` makes of a record. `none` when the address is no webhook or the record cannot be formatted. -/
def payloadOf [Unicode] (handler : DiscordLogHandler) (record : MirrorRecord) : Option Payload := do
  if !(lit "https://discord.com/api/webhooks/").isPrefixOf handler.webhookUrl then none
  let msg ← record.formatted
  let (color, title, content) := urgency handler record
  let location := ⟨lit "Location", '`' :: (record.filename ++ ':' :: Nat.toDigits 10 record.lineno ++ ['`']), true⟩
  let severity := ⟨lit "Severity", '`' :: (upper record.levelname ++ ['`']), true⟩
  return {
    content := if content = [] then none else some content
    title
    description := if msg.length < 1000 then codeBlock msg else codeBlock (msg.take 990 ++ lit "...")
    color
    fields := [location, severity] ++ (record.traceback.map tracebackField).toList
    timestamp := record.timestamp }

/-! ## The worker and the threads that log -/

/-- What a `client.post` comes to. The three kinds of errors are caught. -/
inductive Posted
  | response (status : Int) (body : Body)
  | httpError
  | osError
  | runtimeError
  | uncaught

/-- Where the worker goes behind its `finally`. -/
inductive Then
  | again
  | leave

inductive Worker
  | waiting                                    -- in `self._queue.get()`
  | holding (payload : Payload)                -- before the first `client.post`
  | sleeping (payload : Payload)               -- in `time.sleep(retry_after)`
  | retrying (payload : Payload)               -- before the second one
  | finishing (payload : Option Payload) (next : Then)
  | gone                                       -- returned, or ended by an exception

def Then.worker : Then → Worker
  | .again => .waiting
  | .leave => .gone

/-- The queue and the worker, and what happened: the payloads that were put, those that are done, and all posts. -/
structure Mirror where
  queue : WorkQueue (Option Payload)
  worker : Worker
  accepted : List Payload
  handled : List Payload
  posts : List (Payload × Posted)

def Mirror.start : Mirror := ⟨.empty, .waiting, [], [], []⟩

inductive Action
  | emit (record : MirrorRecord)
  | close
  | flushed                   -- a `flush` returns
  | get
  | clientFails (caught : Bool)  -- `httpx.Client` raises
  | post (posted : Posted)
  | wake
  | taskDone

def maxsize : Nat := 200

section Step

variable [Unicode]

/-- After the first post: a 429 is waited for, and every other answer is taken. -/
def afterPost (payload : Payload) : Posted → Worker
  | .response status body =>
    if status = 429 then
      match parseDiscordRetryAfter body >>= sleep with
      | .ok () => .sleeping payload
      | .error _ => .finishing (some payload) .leave
    else .finishing (some payload) .again
  | .httpError | .osError | .runtimeError => .finishing (some payload) .again
  | .uncaught => .finishing (some payload) .leave

/-- After the second post. Nothing reads its status. -/
def afterRetry (payload : Payload) : Posted → Worker
  | .response _ _ | .httpError | .osError | .runtimeError => .finishing (some payload) .again
  | .uncaught => .finishing (some payload) .leave

def step (handler : DiscordLogHandler) (m : Mirror) : Action → Option Mirror
  | .emit record =>
    match payloadOf handler record with
    | none => some m
    | some payload =>
      match m.queue.putNowait maxsize (some payload) with
      | some queue => some { m with queue, accepted := m.accepted ++ [payload] }
      | none => some m
  | .close =>
    match m.queue.putNowait maxsize none with
    | some queue => some { m with queue }
    | none => some m
  | .flushed => if m.queue.Joins then some m else none
  | .get =>
    match m.worker, m.queue.get with
    | .waiting, some (some payload, queue) => some { m with queue, worker := .holding payload }
    | .waiting, some (none, queue) => some { m with queue, worker := .finishing none .leave }
    | _, _ => none
  | .clientFails caught =>
    match m.worker with
    | .holding payload => some { m with worker := .finishing (some payload) (if caught then .again else .leave) }
    | _ => none
  | .post posted =>
    match m.worker with
    | .holding payload => some { m with worker := afterPost payload posted, posts := m.posts ++ [(payload, posted)] }
    | .retrying payload => some { m with worker := afterRetry payload posted, posts := m.posts ++ [(payload, posted)] }
    | _ => none
  | .wake =>
    match m.worker with
    | .sleeping payload => some { m with worker := .retrying payload }
    | _ => none
  | .taskDone =>
    match m.worker, m.queue.taskDone with
    | .finishing payload next, some queue =>
      some { m with queue, worker := next.worker, handled := m.handled ++ payload.toList }
    | _, _ => none

def Step (handler : DiscordLogHandler) (m : Mirror) (a : Action) (m' : Mirror) : Prop := step handler m a = some m'

end Step

/-- The payload that the worker is busy with. -/
def Worker.inHand : Worker → Option Payload
  | .waiting | .gone => none
  | .holding payload | .sleeping payload | .retrying payload => some payload
  | .finishing payload _ => payload

/-- The tasks that the worker got and has not done. -/
def Worker.held : Worker → Nat
  | .waiting | .gone => 0
  | .holding _ | .sleeping _ | .retrying _ | .finishing _ _ => 1

/-- The posts of one payload: none, one, or a second one after a 429. -/
def OnePayload (posts : List Posted) : Prop :=
  posts = [] ∨ (∃ posted, posts = [posted]) ∨ ∃ body posted, posts = [.response 429 body, posted]

/-- All posts, payload by payload. -/
def postsOf (groups : List (Payload × List Posted)) : List (Payload × Posted) :=
  groups.flatMap fun group => group.2.map fun posted => (group.1, posted)

/-- What the records that are logged give to put into the queue. -/
def offered [Unicode] (handler : DiscordLogHandler) (as : List Action) : List Payload :=
  as.filterMap fun
    | .emit record => payloadOf handler record
    | _ => none

/-- There is room in the queue for what is logged. -/
def Room (m : Mirror) : Action → Prop
  | .emit _ => m.queue.items.length < maxsize
  | _ => True

/-- In order and nothing lost: what was accepted was handled, or is in hand, or is still queued, and each payload has been
posted in its turn, at most once or, after a 429, twice. A payload is refused only when the queue is full. A `flush` that
returns leaves nothing behind. -/
structure Mirrored [Unicode] (handler : DiscordLogHandler) (as : List Action) (m : Mirror) : Prop where
  taken : m.accepted.Sublist (offered handler as)
  refused : ∀ before a after m₀ m₁, as = before ++ a :: after → Run (Step handler) .start before m₀ → Step handler m₀ a m₁ →
    m₁.accepted = m₀.accepted ++ offered handler [a] ∨ m₁.accepted = m₀.accepted ∧ ¬ Room m₀ a
  complete : Run (Only (Step handler) Room) .start as m → m.accepted = offered handler as
  in_order : m.accepted = m.handled ++ m.worker.inHand.toList ++ m.queue.items.reduceOption
  bounded : m.queue.items.length ≤ maxsize
  posted : ∃ groups, groups.map Prod.fst = m.handled ++ m.worker.inHand.toList ∧ m.posts = postsOf groups ∧
    ∀ group ∈ groups, OnePayload group.2
  flushed : ∀ m', Step handler m .flushed m' → m.handled = m.accepted

/-! ## One step -/

/-- The posts so far of the payload in hand. -/
def Worker.PostedSoFar : Worker → List Posted → Prop
  | .waiting, _ | .gone, _ => True
  | .holding _, posts => posts = []
  | .sleeping _, posts | .retrying _, posts => ∃ body, posts = [.response 429 body]
  | .finishing _ _, posts => OnePayload posts

structure Inv (m : Mirror) : Prop where
  in_order : m.accepted = m.handled ++ m.worker.inHand.toList ++ m.queue.items.reduceOption
  bounded : m.queue.items.length ≤ maxsize
  balanced : m.queue.Balanced m.worker.held
  posted : ∃ groups current, groups.map Prod.fst = m.handled ∧ (∀ group ∈ groups, OnePayload group.2) ∧
    m.worker.PostedSoFar current ∧ m.posts = postsOf (groups ++ m.worker.inHand.toList.map fun payload => (payload, current))

/-- What a step can do. -/
inductive Moves [Unicode] (m : Mirror) : Mirror → Prop
  | stays : Moves m m
  | puts {item : Option Payload} {queue : WorkQueue (Option Payload)} (hput : m.queue.putNowait maxsize item = some queue) :
    Moves m { m with queue, accepted := m.accepted ++ item.toList }
  | takes {payload : Payload} {queue : WorkQueue (Option Payload)} (hworker : m.worker = .waiting)
    (hget : m.queue.get = some (some payload, queue)) : Moves m { m with queue, worker := .holding payload }
  | stops {queue : WorkQueue (Option Payload)} (hworker : m.worker = .waiting) (hget : m.queue.get = some (none, queue)) :
    Moves m { m with queue, worker := .finishing none .leave }
  | fails {payload : Payload} (next : Then) (hworker : m.worker = .holding payload) :
    Moves m { m with worker := .finishing (some payload) next }
  | posts {payload : Payload} (posted : Posted) (hworker : m.worker = .holding payload) :
    Moves m { m with worker := afterPost payload posted, posts := m.posts ++ [(payload, posted)] }
  | wakes {payload : Payload} (hworker : m.worker = .sleeping payload) : Moves m { m with worker := .retrying payload }
  | retries {payload : Payload} (posted : Posted) (hworker : m.worker = .retrying payload) :
    Moves m { m with worker := afterRetry payload posted, posts := m.posts ++ [(payload, posted)] }
  | finishes {payload : Option Payload} {next : Then} {queue : WorkQueue (Option Payload)}
    (hworker : m.worker = .finishing payload next) (hdone : m.queue.taskDone = some queue) :
    Moves m { m with queue, worker := next.worker, handled := m.handled ++ payload.toList }

variable {m m' : Mirror} {a : Action} {as : List Action} {payload : Payload} {posted : Posted}

theorem postsOf_append (groups more : List (Payload × List Posted)) : postsOf (groups ++ more) = postsOf groups ++ postsOf more :=
  List.flatMap_append

theorem postsOf_one (posts : List Posted) : postsOf [(payload, posts)] = posts.map fun posted => (payload, posted) := by
  simp [postsOf]

theorem inv_start : Inv .start :=
  ⟨rfl, Nat.zero_le _, WorkQueue.balanced_empty, [], [], rfl, by simp, trivial, rfl⟩

theorem afterRetry_eq (payload : Payload) (posted : Posted) : ∃ next, afterRetry payload posted = .finishing (some payload) next := by
  cases posted <;> exact ⟨_, rfl⟩

variable [Unicode] {handler : DiscordLogHandler}

/-- What is behind a post: the worker sleeps after a 429, or it is done with the payload. -/
theorem afterPost_cases (payload : Payload) (posted : Posted) :
    (∃ body, posted = .response 429 body ∧ afterPost payload posted = .sleeping payload) ∨
      ∃ next, afterPost payload posted = .finishing (some payload) next := by
  cases posted with
  | response status body =>
    unfold afterPost
    by_cases hstatus : status = 429
    · subst hstatus
      cases hwait : parseDiscordRetryAfter body >>= sleep with
      | ok => exact .inl ⟨body, rfl, by simp only [if_true, hwait]⟩
      | error => exact .inr ⟨.leave, by simp only [if_true, hwait]⟩
    · exact .inr ⟨.again, if_neg hstatus⟩
  | httpError | osError | runtimeError => exact .inr ⟨.again, rfl⟩
  | uncaught => exact .inr ⟨.leave, rfl⟩

theorem moves_of_step (h : Step handler m a m') : Moves m m' := by
  unfold Step step at h
  cases a with
  | emit record =>
    dsimp only at h
    split at h
    · cases h
      exact .stays
    · split at h
      · rename_i hput
        cases h
        exact .puts hput
      · cases h
        exact .stays
  | close =>
    dsimp only at h
    split at h
    · rename_i hput
      cases h
      simpa using Moves.puts hput
    · cases h
      exact .stays
  | flushed =>
    dsimp only at h
    split at h
    · cases h
      exact .stays
    · cases h
  | get =>
    dsimp only at h
    split at h
    · rename_i hworker hget
      cases h
      exact .takes hworker hget
    · rename_i hworker hget
      cases h
      exact .stops hworker hget
    · cases h
  | clientFails caught =>
    dsimp only at h
    split at h
    · rename_i hworker
      cases h
      exact .fails _ hworker
    · cases h
  | post posted =>
    dsimp only at h
    split at h
    · rename_i hworker
      cases h
      exact .posts posted hworker
    · rename_i hworker
      cases h
      exact .retries posted hworker
    · cases h
  | wake =>
    dsimp only at h
    split at h
    · rename_i hworker
      cases h
      exact .wakes hworker
    · cases h
  | taskDone =>
    dsimp only at h
    split at h
    · rename_i hworker hdone
      cases h
      exact .finishes hworker hdone
    · cases h

theorem inv_moves (h : Inv m) (hmove : Moves m m') : Inv m' := by
  obtain ⟨horder, hbounded, hbalanced, groups, current, hgroups, hone, hsofar, hposts⟩ := h
  cases hmove with
  | stays => exact ⟨horder, hbounded, hbalanced, groups, current, hgroups, hone, hsofar, hposts⟩
  | puts hput =>
    refine ⟨?_, ?_, hbalanced.putNowait hput, groups, current, hgroups, hone, hsofar, hposts⟩
    · obtain ⟨-, rfl⟩ := WorkQueue.putNowait_eq_some hput
      simp only [horder, List.reduceOption_append, List.reduceOption_singleton, List.append_assoc]
    · obtain ⟨hroom, rfl⟩ := WorkQueue.putNowait_eq_some hput
      unfold maxsize at hroom ⊢
      simp only [List.length_append, List.length_singleton]
      omega
  | @takes payload queue hworker hget =>
    obtain ⟨hitems, -⟩ := WorkQueue.get_eq_some hget
    rw [hworker] at horder hbalanced hposts
    refine ⟨?_, ?_, hbalanced.get hget, groups, [], hgroups, hone, rfl, ?_⟩
    · simp only [horder, hitems, List.reduceOption_cons_of_some, Worker.inHand, Option.toList_none, Option.toList_some, List.append_nil,
        List.append_assoc, List.singleton_append]
    · rw [hitems, List.length_cons] at hbounded
      exact Nat.le_of_succ_le hbounded
    · simpa [postsOf_append, postsOf_one, Worker.inHand] using hposts
  | stops hworker hget =>
    obtain ⟨hitems, -⟩ := WorkQueue.get_eq_some hget
    rw [hworker] at horder hbalanced hposts
    refine ⟨?_, ?_, hbalanced.get hget, groups, [], hgroups, hone, .inl rfl, hposts⟩
    · simp only [horder, hitems, List.reduceOption_cons_of_none, Worker.inHand]
    · rw [hitems, List.length_cons] at hbounded
      exact Nat.le_of_succ_le hbounded
  | @fails payload next hworker =>
    rw [hworker] at horder hbalanced hposts hsofar
    obtain rfl : current = [] := hsofar
    exact ⟨horder, hbounded, hbalanced, groups, [], hgroups, hone, .inl rfl, hposts⟩
  | @posts payload posted hworker =>
    rw [hworker] at horder hbalanced hposts hsofar
    obtain rfl : current = [] := hsofar
    have hadded : m.posts ++ [(payload, posted)] = postsOf (groups ++ [(payload, [posted])]) := by
      rw [hposts, postsOf_append, postsOf_append]
      simp [postsOf, Worker.inHand]
    rcases afterPost_cases payload posted with ⟨body, rfl, hafter⟩ | ⟨next, hafter⟩
    · rw [hafter]
      exact ⟨horder, hbounded, hbalanced, groups, _, hgroups, hone, ⟨body, rfl⟩, hadded⟩
    · rw [hafter]
      exact ⟨horder, hbounded, hbalanced, groups, _, hgroups, hone, .inr (.inl ⟨posted, rfl⟩), hadded⟩
  | wakes hworker =>
    rw [hworker] at horder hbalanced hposts hsofar
    exact ⟨horder, hbounded, hbalanced, groups, current, hgroups, hone, hsofar, hposts⟩
  | @retries payload posted hworker =>
    rw [hworker] at horder hbalanced hposts hsofar
    obtain ⟨body, rfl⟩ := hsofar
    have hadded : m.posts ++ [(payload, posted)] = postsOf (groups ++ [(payload, [.response 429 body, posted])]) := by
      rw [hposts, postsOf_append, postsOf_append]
      simp [postsOf, Worker.inHand]
    obtain ⟨next, hafter⟩ := afterRetry_eq payload posted
    rw [hafter]
    exact ⟨horder, hbounded, hbalanced, groups, _, hgroups, hone, .inr (.inr ⟨body, posted, rfl⟩), hadded⟩
  | @finishes payload next queue hworker hdone =>
    rw [hworker] at horder hbalanced hposts hsofar
    obtain ⟨hitems, -⟩ := WorkQueue.taskDone_eq_some hdone
    have hnone : next.worker.inHand = none ∧ next.worker.held = 0 ∧ ∀ posts, next.worker.PostedSoFar posts := by
      cases next <;> exact ⟨rfl, rfl, fun _ => trivial⟩
    refine ⟨?_, ?_, ?_, groups ++ payload.toList.map fun payload => (payload, current), [], ?_, ?_, hnone.2.2 _, ?_⟩
    · rw [horder, hnone.1, hitems]
      simp [Worker.inHand]
    · exact hitems ▸ hbounded
    · rw [hnone.2.1]
      exact hbalanced.taskDone hdone
    · cases payload <;> simp [hgroups]
    · intro group hgroup
      rcases List.mem_append.mp hgroup with hold | hnew
      · exact hone group hold
      · obtain ⟨p, -, rfl⟩ := List.mem_map.mp hnew
        exact hsofar
    · rw [hnone.1]
      simpa [Worker.inHand] using hposts

/-! ## A run -/

theorem inv_run (hrun : Run (Step handler) m as m') (h : Inv m) : Inv m' :=
  hrun.invariant (fun _ _ _ hinv hstep => inv_moves hinv (moves_of_step hstep)) h

theorem joins_of_flushed (h : Step handler m .flushed m') : m.queue.Joins := by
  unfold Step step at h
  dsimp only at h
  split at h
  · assumption
  · cases h

omit [Unicode] in
theorem Inv.joins_iff (h : Inv m) : m.queue.Joins ↔ m.queue.items = [] ∧ m.worker.held = 0 := h.balanced.joins_iff

omit [Unicode] in
theorem inHand_of_held {worker : Worker} (h : worker.held = 0) : worker.inHand = none := by
  cases worker with
  | waiting | gone => rfl
  | holding | sleeping | retrying | finishing => cases h

omit [Unicode] in
theorem onePayload_inHand {worker : Worker} {posts : List Posted} (hhand : worker.inHand = some payload)
    (h : worker.PostedSoFar posts) : OnePayload posts := by
  cases worker with
  | waiting | gone => cases hhand
  | holding => exact .inl h
  | sleeping | retrying =>
    obtain ⟨body, rfl⟩ := h
    exact .inr (.inl ⟨_, rfl⟩)
  | finishing => exact h

theorem offered_append (as bs : List Action) : offered handler (as ++ bs) = offered handler as ++ offered handler bs :=
  List.filterMap_append

/-- A record that is logged is put into the queue, or the queue is full. -/
theorem accepted_step (h : Step handler m a m') :
    m'.accepted = m.accepted ++ offered handler [a] ∨ m'.accepted = m.accepted ∧ ¬ Room m a := by
  unfold Step step at h
  cases a with
  | emit record =>
    dsimp only at h
    split at h
    · rename_i hpayload
      cases h
      exact .inl (by simp [offered, hpayload])
    · rename_i payload hpayload
      split at h
      · cases h
        exact .inl (by simp [offered, hpayload])
      · rename_i hput
        cases h
        refine .inr ⟨rfl, fun hroom => ?_⟩
        unfold WorkQueue.putNowait at hput
        rw [if_pos (.inr hroom)] at hput
        cases hput
  | close | flushed | get | clientFails | post | wake | taskDone =>
    dsimp only at h
    split at h <;> cases h <;> exact .inl (List.append_nil _).symm

theorem accepted_sublist (hrun : Run (Step handler) .start as m) : m.accepted.Sublist (offered handler as) := by
  refine hrun.history (P := fun as m => m.accepted.Sublist (offered handler as)) (List.Sublist.refl _) ?_
  intro as m a t _ hsub hstep
  rw [offered_append]
  rcases accepted_step hstep with heq | ⟨heq, -⟩
  · rw [heq]
    exact hsub.append_right _
  · rw [heq]
    exact hsub.trans (List.sublist_append_left _ _)

theorem accepted_eq (hrun : Run (Only (Step handler) Room) .start as m) : m.accepted = offered handler as := by
  refine hrun.history (P := fun as m => m.accepted = offered handler as) rfl ?_
  rintro as m a t - heq ⟨hstep, hroom⟩
  rw [offered_append, ← heq]
  exact (accepted_step hstep).resolve_right fun h => h.2 hroom

/-- **The mirror posts what is logged, in order.** However the threads that log, flush and close are interleaved with the
worker, and whatever the posts come to. -/
theorem mirrored_run (hrun : Run (Step handler) .start as m) : Mirrored handler as m := by
  have hinv := inv_run hrun inv_start
  obtain ⟨groups, current, hgroups, hone, hsofar, hposts⟩ := hinv.posted
  refine ⟨accepted_sublist hrun, fun _ _ _ _ _ _ _ hstep => accepted_step hstep, accepted_eq, hinv.in_order, hinv.bounded, ⟨_, ?_, hposts, ?_⟩, ?_⟩
  · cases hhand : m.worker.inHand with
    | none => simp [hgroups]
    | some payload => simp [hgroups]
  · intro group hgroup
    rcases List.mem_append.mp hgroup with hold | hnew
    · exact hone group hold
    · obtain ⟨payload, hpayload, rfl⟩ := List.mem_map.mp hnew
      exact onePayload_inHand (Option.mem_toList.mp hpayload) hsofar
  · intro m' hflushed
    obtain ⟨hitems, hheld⟩ := hinv.joins_iff.mp (joins_of_flushed hflushed)
    rw [hinv.in_order, hitems, inHand_of_held hheld]
    simp

def sampleHandler : DiscordLogHandler := ⟨lit "https://discord.com/api/webhooks/1/x", lit "@ops"⟩

def sampleRecord : MirrorRecord := ⟨some (lit "disk full"), lit "root", lit "ERROR", 40, lit "db.py", 7, none, lit "2026-01-01T00:00:00+00:00"⟩

omit [Unicode] in
/-- A record that is posted, and a flush behind it. -/
theorem mirrored_posted : let _ := Unicode.ascii
    ∃ m, Mirrored sampleHandler [.emit sampleRecord, .get, .post (.response 204 .malformed), .taskDone, .flushed] m ∧ m.handled.length = 1 :=
  let _ := Unicode.ascii
  ⟨_, mirrored_run (.of_exec (show exec (step sampleHandler) _ _ = some _ from rfl)), rfl⟩

end Palworld.Logs

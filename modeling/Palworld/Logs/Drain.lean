import Palworld.Logs.Mirror

/-!
# When a flush of the mirror returns

`flush` waits until nothing is unfinished. A worker that has ended finishes nothing more.
-/

open Lib

namespace Palworld.Logs

variable {m m' : Mirror} {a : Action} {as : List Action} {payload : Payload} [Unicode] {handler : DiscordLogHandler}

/-- The worker is about to end, or has ended. -/
def Worker.Leaves : Worker → Prop
  | .gone | .finishing _ .leave => True
  | _ => False

/-- The worker will come to all that is queued: only the last item may stop it, and when it leaves nothing is queued. -/
structure Mirror.Drainable (m : Mirror) : Prop where
  no_stop : none ∉ m.queue.items.dropLast
  left : m.worker.Leaves → m.queue.items = []

omit [Unicode] in
theorem noStop_cons {item : Option Payload} {items : List (Option Payload)} (h : none ∉ items.dropLast)
    (hitem : item = none → items = []) : none ∉ (item :: items).dropLast := by
  cases items with
  | nil => simp
  | cons next items =>
    rw [List.dropLast_cons_of_ne_nil (List.cons_ne_nil _ _)]
    rintro (_ | ⟨_, hmem⟩)
    · cases hitem rfl
    · exact h hmem

/-- No step makes up for what the worker will not come to. -/
theorem drainable_of_moves (hmove : Moves m m') (h : m'.Drainable) : m.Drainable := by
  obtain ⟨hstop, hleft⟩ := h
  cases hmove with
  | stays => exact ⟨hstop, hleft⟩
  | @puts item queue hput =>
    obtain ⟨-, rfl⟩ := WorkQueue.putNowait_eq_some hput
    dsimp only at hstop hleft
    rw [List.dropLast_concat] at hstop
    exact ⟨fun hmem => hstop (List.dropLast_subset _ hmem), fun hleaves => absurd (hleft hleaves) (by simp)⟩
  | takes hworker hget =>
    obtain ⟨hitems, -⟩ := WorkQueue.get_eq_some hget
    refine ⟨?_, fun hleaves => ?_⟩
    · rw [hitems]
      exact noStop_cons hstop (by simp)
    · rw [hworker] at hleaves
      exact hleaves.elim
  | stops hworker hget =>
    obtain ⟨hitems, -⟩ := WorkQueue.get_eq_some hget
    refine ⟨?_, fun hleaves => ?_⟩
    · rw [hitems]
      exact noStop_cons hstop fun _ => hleft trivial
    · rw [hworker] at hleaves
      exact hleaves.elim
  | fails next hworker | posts posted hworker | wakes hworker | retries posted hworker =>
    refine ⟨hstop, fun hleaves => ?_⟩
    rw [hworker] at hleaves
    exact hleaves.elim
  | @finishes payload next queue hworker hdone =>
    obtain ⟨hitems, -⟩ := WorkQueue.taskDone_eq_some hdone
    dsimp only at hstop hleft
    rw [hitems] at hstop hleft
    refine ⟨hstop, fun hleaves => hleft ?_⟩
    rw [hworker] at hleaves
    cases next with
    | again => exact hleaves.elim
    | leave => trivial

omit [Unicode] in
theorem drainable_of_joins (h : Inv m) (hjoins : m.queue.Joins) : m.Drainable := by
  have hitems := (h.joins_iff.mp hjoins).1
  exact ⟨by simp [hitems], fun _ => hitems⟩

variable (handler) in
theorem get_payload {items : List (Option Payload)} {unfinished : Nat} (hworker : m.worker = .waiting)
    (hqueue : m.queue = ⟨some payload :: items, unfinished⟩) :
    Step handler m .get { m with queue := ⟨items, unfinished⟩, worker := .holding payload } := by
  simp [Step, step, hworker, hqueue, WorkQueue.get]

variable (handler) in
theorem get_stop {items : List (Option Payload)} {unfinished : Nat} (hworker : m.worker = .waiting)
    (hqueue : m.queue = ⟨none :: items, unfinished⟩) :
    Step handler m .get { m with queue := ⟨items, unfinished⟩, worker := .finishing none .leave } := by
  simp [Step, step, hworker, hqueue, WorkQueue.get]

/-- The worker is done with what it holds and waits for the next task, or is gone. -/
structure Idles (m m' : Mirror) : Prop where
  inv : Inv m'
  drainable : m'.Drainable
  held : m'.worker.held = 0
  items : m'.queue.items = m.queue.items

omit [Unicode] in
theorem leaves_of_gone {worker : Worker} (hheld : worker.held = 0) (h : worker ≠ .waiting) : worker.Leaves := by
  cases worker with
  | waiting => exact absurd rfl h
  | gone => trivial
  | holding | sleeping | retrying | finishing => cases hheld

variable (handler) in
theorem finishing_idles {task : Option Payload} {next : Then} (hinv : Inv m) (hdrain : m.Drainable)
    (hworker : m.worker = .finishing task next) : ∃ bs m', Run (Step handler) m bs m' ∧ Idles m m' := by
  have hbalanced := hinv.balanced
  rw [hworker] at hbalanced
  obtain ⟨queue, hdone⟩ := hbalanced.exists_taskDone
  obtain ⟨hitems, -⟩ := WorkQueue.taskDone_eq_some hdone
  have hstep : Step handler m .taskDone { m with queue, worker := next.worker, handled := m.handled ++ task.toList } := by
    simp [Step, step, hworker, hdone]
  refine ⟨_, _, .one hstep, inv_moves hinv (moves_of_step hstep), ⟨?_, fun hleaves => ?_⟩, ?_, hitems⟩
  · rw [hitems]
    exact hdrain.no_stop
  · rw [hitems]
    refine hdrain.left ?_
    rw [hworker]
    cases next with
    | again => exact hleaves.elim
    | leave => trivial
  · cases next <;> rfl

variable (handler) in
/-- Whatever the worker is at, it can come to its end. -/
theorem exists_idles (hinv : Inv m) (hdrain : m.Drainable) : ∃ bs m', Run (Step handler) m bs m' ∧ Idles m m' := by
  have hretry {m : Mirror} {payload : Payload} (hinv : Inv m) (hstop : none ∉ m.queue.items.dropLast)
      (hworker : m.worker = .retrying payload) : ∃ bs m', Run (Step handler) m bs m' ∧ Idles m m' := by
    have hstep : Step handler m (.post .httpError)
        { m with worker := .finishing (some payload) .again, posts := m.posts ++ [(payload, .httpError)] } := by
      simp [Step, step, hworker, afterRetry]
    obtain ⟨bs, m', hrun, hinv', hdrain', hheld, hitems⟩ := finishing_idles handler
      (inv_moves hinv (moves_of_step hstep)) ⟨hstop, fun hleaves => hleaves.elim⟩ rfl
    exact ⟨_, m', .cons hstep hrun, hinv', hdrain', hheld, hitems⟩
  cases hworker : m.worker with
  | waiting | gone => exact ⟨[], m, .nil m, hinv, hdrain, by rw [hworker]; rfl, rfl⟩
  | holding payload =>
    have hstep : Step handler m (.clientFails true) { m with worker := .finishing (some payload) .again } := by
      simp [Step, step, hworker]
    obtain ⟨bs, m', hrun, hinv', hdrain', hheld, hitems⟩ := finishing_idles handler
      (inv_moves hinv (moves_of_step hstep)) ⟨hdrain.no_stop, fun hleaves => hleaves.elim⟩ rfl
    exact ⟨_, m', .cons hstep hrun, hinv', hdrain', hheld, hitems⟩
  | sleeping payload =>
    have hstep : Step handler m .wake { m with worker := .retrying payload } := by
      simp [Step, step, hworker]
    obtain ⟨bs, m', hrun, hinv', hdrain', hheld, hitems⟩ :=
      hretry (inv_moves hinv (moves_of_step hstep)) hdrain.no_stop rfl
    exact ⟨_, m', .cons hstep hrun, hinv', hdrain', hheld, hitems⟩
  | retrying payload => exact hretry hinv hdrain.no_stop hworker
  | finishing task next => exact finishing_idles handler hinv hdrain hworker

variable (handler) in
theorem exists_joins {items : List (Option Payload)} (hinv : Inv m) (hdrain : m.Drainable) (hitems : m.queue.items = items) :
    ∃ bs m', Run (Step handler) m bs m' ∧ m'.queue.Joins := by
  induction items generalizing m with
  | nil =>
    obtain ⟨bs, m', hrun, hinv', -, hheld, hsame⟩ := exists_idles handler hinv hdrain
    exact ⟨bs, m', hrun, hinv'.joins_iff.mpr ⟨hsame.trans hitems, hheld⟩⟩
  | cons item items ih =>
    obtain ⟨bs, m', hrun, hinv', hdrain', hheld, hsame⟩ := exists_idles handler hinv hdrain
    have hitems' := hsame.trans hitems
    have hwaiting : m'.worker = .waiting := by
      by_contra hne
      rw [hdrain'.left (leaves_of_gone hheld hne)] at hitems'
      cases hitems'
    have hqueue : m'.queue = ⟨item :: items, m'.queue.unfinished⟩ := by rw [← hitems']
    have hstop := hdrain'.no_stop
    rw [hitems'] at hstop
    have hrest : none ∉ items.dropLast := by
      intro hmem
      have hne : items ≠ [] := by
        rintro rfl
        cases hmem
      rw [List.dropLast_cons_of_ne_nil hne] at hstop
      exact hstop (List.mem_cons_of_mem _ hmem)
    cases item with
    | some payload =>
      have hstep := get_payload handler hwaiting hqueue
      obtain ⟨cs, m'', hrun', hjoins⟩ := ih (inv_moves hinv' (moves_of_step hstep)) ⟨hrest, fun hleaves => hleaves.elim⟩ rfl
      exact ⟨_, m'', hrun.append (.cons hstep hrun'), hjoins⟩
    | none =>
      have hstep := get_stop handler hwaiting hqueue
      have hnil : items = [] := by
        by_contra hne
        rw [List.dropLast_cons_of_ne_nil hne] at hstop
        exact hstop (List.mem_cons_self ..)
      obtain ⟨cs, m'', hrun', hjoins⟩ := ih (inv_moves hinv' (moves_of_step hstep)) ⟨hrest, fun _ => hnil⟩ rfl
      exact ⟨_, m'', hrun.append (.cons hstep hrun'), hjoins⟩

/-- **When a flush can still return.** Exactly as long as the worker will come to all that is queued. After that it hangs,
whatever happens: a worker that ended on an exception, or a stop with something behind it, is never made up for. -/
theorem flush_returns_iff (hrun : Run (Step handler) .start as m) :
    (∃ bs m' m'', Run (Step handler) m bs m' ∧ Step handler m' .flushed m'') ↔ m.Drainable := by
  have hinv := inv_run hrun inv_start
  constructor
  · rintro ⟨bs, m', m'', hrun', hflushed⟩
    have hdrain := drainable_of_joins (inv_run hrun' hinv) (joins_of_flushed hflushed)
    clear hflushed hinv hrun
    induction hrun' with
    | nil => exact hdrain
    | cons head _ ih => exact drainable_of_moves (moves_of_step head) (ih hdrain)
  · intro hdrain
    obtain ⟨bs, m', hrun', hjoins⟩ := exists_joins handler hinv hdrain rfl
    exact ⟨bs, m', m', hrun', if_pos hjoins⟩

omit [Unicode] in
/-- A 429 whose body is JSON, but no object, ends the worker. A flush then hangs on what is queued behind. -/
theorem flush_hangs : let _ := Unicode.ascii
    ∃ m, Run (Step sampleHandler) .start
        [.emit sampleRecord, .emit sampleRecord, .get, .post (.response 429 (.json (.array []))), .taskDone] m ∧
      ¬ ∃ bs m' m'', Run (Step sampleHandler) m bs m' ∧ Step sampleHandler m' .flushed m'' := by
  intro _
  have hrun : Run (Step sampleHandler) .start
      [.emit sampleRecord, .emit sampleRecord, .get, .post (.response 429 (.json (.array []))), .taskDone] _ :=
    .of_exec (show exec (step sampleHandler) _ _ = some _ from rfl)
  refine ⟨_, hrun, fun hreturns => ?_⟩
  have hdrain := (flush_returns_iff hrun).mp hreturns
  exact absurd (hdrain.left trivial) (List.cons_ne_nil _ _)

end Palworld.Logs

import Palworld.Database.Users
import Palworld.Lib.Paging
import Palworld.Lib.Run
import Mathlib.Data.List.Sort

/-!
# Feedback and its pages

A submission is stored and then perhaps exported to GitHub by a background task. A client reads the
submissions page by page, and others submit meanwhile.
-/

open Lib Lib.Db

namespace Palworld.Database

structure FeedbackRow where
  id : Int
  category : Text
  title : Text
  description : Text
  metadataJson : Text
  submittedBy : Text
  status : Text
  githubIssueNumber : Option Int
  createdAt : Text
  deriving DecidableEq

/-- The table. Rows are in the order of their ids, and `AUTOINCREMENT` never reuses one. -/
structure FeedbackTable where
  rows : List FeedbackRow
  seq : Int
  ascending : (rows.map FeedbackRow.id).Pairwise (· < ·)
  seq_le : ∀ row ∈ rows, row.id ≤ seq

structure NewFeedback where
  category : Text
  title : Text
  description : Text
  metadataJson : Text
  submittedBy : Text
  createdAt : Text

def NewFeedback.row (new : NewFeedback) (id : Int) : FeedbackRow where
  id := id
  category := new.category
  title := new.title
  description := new.description
  metadataJson := new.metadataJson
  submittedBy := new.submittedBy
  status := lit "OPEN"
  githubIssueNumber := none
  createdAt := new.createdAt

/-! ## Statements -/

/-- `INSERT INTO feedback_submissions`, with the new id. -/
def FeedbackTable.insert (new : NewFeedback) (t : FeedbackTable) : Int × FeedbackTable :=
  (t.seq + 1,
    { rows := t.rows ++ [new.row (t.seq + 1)]
      seq := t.seq + 1
      ascending := by
        rw [List.map_append, List.pairwise_append]
        refine ⟨t.ascending, List.pairwise_singleton _ _, ?_⟩
        intro i hi j hj
        obtain ⟨row, hrow, rfl⟩ := List.mem_map.mp hi
        obtain rfl : j = t.seq + 1 := List.mem_singleton.mp hj
        have := t.seq_le row hrow
        omega
      seq_le := by
        intro row hrow
        rcases List.mem_append.mp hrow with hold | hnew
        · have := t.seq_le row hold
          omega
        · obtain rfl := List.mem_singleton.mp hnew
          exact Int.le_refl _ })

/-- What `UPDATE … SET status` makes of a row, and of its issue number where one is given. -/
def FeedbackRow.withStatus (status : Text) (issue : Option Int) (row : FeedbackRow) : FeedbackRow :=
  { row with status, githubIssueNumber := issue.or row.githubIssueNumber }

def FeedbackTable.setStatus (id : Int) (status : Text) (issue : Option Int) (t : FeedbackTable) : FeedbackTable where
  rows := t.rows.map fun row => if row.id = id then row.withStatus status issue else row
  seq := t.seq
  ascending := by
    rw [List.map_map]
    have hids : FeedbackRow.id ∘ (fun row => if row.id = id then row.withStatus status issue else row) = FeedbackRow.id := by
      funext row
      simp only [Function.comp_apply]
      split <;> rfl
    rw [hids]
    exact t.ascending
  seq_le := by
    intro row hrow
    obtain ⟨old, hold, rfl⟩ := List.mem_map.mp hrow
    have := t.seq_le old hold
    split <;> exact this

/-- The criteria of `list_feedbacks`. `none` is no criterion. -/
structure FeedbackFilter where
  submittedBy : Option Text
  category : Option Text
  status : Option Text

def FeedbackFilter.admits (filter : FeedbackFilter) (row : FeedbackRow) : Bool :=
  filter.submittedBy.all (· == row.submittedBy) && filter.category.all (· == row.category) && filter.status.all (· == row.status)

structure FeedbackRecord where
  id : Int
  category : Text
  title : Text
  description : Text
  metadataJson : Text
  submittedBy : Text
  status : Text
  githubIssueNumber : Option Int
  createdAt : Text
  deriving DecidableEq

/-- A row as a record. The issue number 0 is none. -/
def FeedbackRow.record (row : FeedbackRow) : FeedbackRecord where
  id := row.id
  category := row.category
  title := row.title
  description := row.description
  metadataJson := row.metadataJson
  submittedBy := row.submittedBy
  status := row.status
  githubIssueNumber := row.githubIssueNumber.filter (· ≠ 0)
  createdAt := row.createdAt

/-- `SELECT … WHERE … ORDER BY id DESC`. -/
def FeedbackTable.newestFirst (filter : FeedbackFilter) (t : FeedbackTable) : List FeedbackRow := (t.rows.filter filter.admits).reverse

/-! ## The methods -/

abbrev FeedbackCall (α : Type) := Db FeedbackTable Failure α

def createFeedback (new : NewFeedback) : FeedbackCall FeedbackRecord := do
  let newId ← execute fun t => some (t.insert new)
  commit
  return (new.row newId).record

def listFeedbacks (limit offset : Int) (filter : FeedbackFilter) : FeedbackCall (List FeedbackRecord) :=
  query fun t => (page limit offset (t.newestFirst filter)).map FeedbackRow.record

def getFeedback (id : Int) : FeedbackCall (Option FeedbackRecord) :=
  query fun t => (t.rows.find? fun row => row.id = id).map FeedbackRow.record

def updateFeedbackStatus (id : Int) (status : Text) (issue : Option Int) : FeedbackCall (Option FeedbackRecord) := do
  execute fun t => some ((), t.setStatus id status issue)
  commit
  getFeedback id

/-! ## Submissions and a reader -/

/-- The connection, the submissions whose export is still to come, and a client that reads the pages of a filter. -/
structure FeedbackBoard where
  session : Session FeedbackTable
  tasks : List Int
  reader : Reader FeedbackRecord

inductive FeedbackAct
  | submit (new : NewFeedback)   -- `submit_feedback`, which adds the background task if it gets that far
  | dispatch (id issue : Int)    -- a `dispatch_github_issue` that got an issue number
  | read                         -- the next page; after a failure the same page is asked for again

variable (size : Nat) (filter : FeedbackFilter)

def FeedbackBoard.submit (board : FeedbackBoard) (new : NewFeedback) : FeedbackBoard :=
  match (createFeedback new).on board.session with
  | (.ok record, session) => { board with session, tasks := record.id :: board.tasks }
  | (.error _, session) => { board with session }

def FeedbackBoard.dispatch (board : FeedbackBoard) (id issue : Int) : Option FeedbackBoard :=
  if id ∈ board.tasks then
    some { board with
      session := ((updateFeedbackStatus id (lit "OPEN") (some issue)).on board.session).2, tasks := board.tasks.erase id }
  else none

def FeedbackBoard.read (board : FeedbackBoard) : FeedbackBoard :=
  match (listFeedbacks size board.reader.offset filter).on board.session with
  | (.ok records, session) => { board with session, reader := ⟨board.reader.offset + size, board.reader.seen ++ records⟩ }
  | (.error _, session) => { board with session }

def FeedbackBoard.step (board : FeedbackBoard) : FeedbackAct → Option FeedbackBoard
  | .submit new => some (board.submit new)
  | .dispatch id issue => board.dispatch id issue
  | .read => some (board.read size filter)

def FeedbackStep (board : FeedbackBoard) (act : FeedbackAct) (board' : FeedbackBoard) : Prop := board.step size filter act = some board'

/-! ## What a step does to the table -/

variable {size : Nat} {filter : FeedbackFilter} {t : FeedbackTable} {s s' : Session FeedbackTable} {new : NewFeedback}
  {id issue : Int} {status : Text} {board board' : FeedbackBoard} {act : FeedbackAct} {as : List FeedbackAct}

/-- What a client of this filter is shown, newest first. -/
def FeedbackTable.shown (filter : FeedbackFilter) (t : FeedbackTable) : List FeedbackRecord := (t.newestFirst filter).map FeedbackRow.record

theorem mem_shown {record : FeedbackRecord} :
    record ∈ t.shown filter ↔ ∃ row ∈ t.rows, filter.admits row = true ∧ row.record = record := by
  simp only [FeedbackTable.shown, FeedbackTable.newestFirst, List.mem_map, List.mem_reverse, List.mem_filter, and_assoc]

variable (filter) in
theorem shown_insert (new : NewFeedback) (t : FeedbackTable) : ∃ added, (t.insert new).2.shown filter = added ++ t.shown filter ∧
    ∀ record ∈ added, record.id = t.seq + 1 := by
  unfold FeedbackTable.shown FeedbackTable.newestFirst FeedbackTable.insert
  dsimp only
  rw [List.filter_append, List.reverse_append, List.map_append]
  refine ⟨_, rfl, fun record hrecord => ?_⟩
  obtain ⟨row, hrow, rfl⟩ := List.mem_map.mp hrecord
  obtain rfl := List.mem_singleton.mp (List.mem_of_mem_filter (List.mem_reverse.mp hrow))
  rfl

/-- What the export of an open submission makes of its record. -/
def exported (id issue : Int) (record : FeedbackRecord) : FeedbackRecord :=
  if record.id = id then { record with githubIssueNumber := (some issue).filter (· ≠ 0) } else record

theorem admits_withStatus {row : FeedbackRow} (h : row.status = status) (issue : Option Int) :
    filter.admits (row.withStatus status issue) = filter.admits row := by
  subst h
  rfl

variable (filter issue) in
/-- The export of a submission that is open moves nothing in or out of a filter. -/
theorem shown_setStatus (hopen : ∀ row ∈ t.rows, row.id = id → row.status = lit "OPEN") :
    (t.setStatus id (lit "OPEN") (some issue)).shown filter = (t.shown filter).map (exported id issue) := by
  have hadmits : ∀ row ∈ t.rows,
      filter.admits (if row.id = id then row.withStatus (lit "OPEN") (some issue) else row) = filter.admits row := by
    intro row hrow
    split
    · rename_i hid
      exact admits_withStatus (hopen row hrow hid) _
    · rfl
  have hrecord : ∀ row ∈ t.newestFirst filter, (if row.id = id then row.withStatus (lit "OPEN") (some issue) else row).record =
      exported id issue row.record := by
    intro row hrow
    have hstatus := hopen row (List.mem_of_mem_filter (List.mem_reverse.mp hrow))
    unfold exported FeedbackRow.record
    dsimp only
    split
    · rename_i hid
      simp [FeedbackRow.withStatus, hstatus hid]
    · rfl
  unfold FeedbackTable.shown
  rw [List.map_map]
  have hfirst : (t.setStatus id (lit "OPEN") (some issue)).newestFirst filter =
      (t.newestFirst filter).map fun row => if row.id = id then row.withStatus (lit "OPEN") (some issue) else row := by
    unfold FeedbackTable.newestFirst FeedbackTable.setStatus
    dsimp only
    rw [List.filter_map, List.map_reverse]
    congr 2
    exact List.filter_congr fun row hrow => hadmits row hrow
  rw [hfirst, List.map_map]
  exact List.map_congr_left hrecord

theorem createFeedback_cases (new : NewFeedback) (s : Session FeedbackTable) :
    (((createFeedback new).on s).2.current = s.current ∧ ∃ err, ((createFeedback new).on s).1 = .error err) ∨
      ((createFeedback new).on s).2.current = (s.current.insert new).2 ∧
        ∀ record, ((createFeedback new).on s).1 = .ok record → record.id = s.current.seq + 1 := by
  unfold createFeedback
  rw [Db.on_bind, on_execute]
  by_cases hfault : s.Faulty
  · rw [if_pos hfault]
    exact .inl ⟨rfl, _, rfl⟩
  · rw [if_neg hfault]
    dsimp only
    rw [Db.on_bind, on_commit]
    split_ifs
    · exact .inr ⟨rfl, fun record h => (by cases h)⟩
    · refine .inr ⟨rfl, fun record h => ?_⟩
      cases h
      rfl

theorem updateFeedbackStatus_current (id : Int) (status : Text) (issue : Option Int) (s : Session FeedbackTable) :
    ((updateFeedbackStatus id status issue).on s).2.current = s.current ∨
      ((updateFeedbackStatus id status issue).on s).2.current = s.current.setStatus id status issue := by
  unfold updateFeedbackStatus getFeedback
  rw [Db.on_bind, on_execute]
  by_cases hfault : s.Faulty
  · rw [if_pos hfault]
    exact .inl rfl
  · rw [if_neg hfault]
    dsimp only
    rw [Db.on_bind, on_commit]
    split_ifs
    · exact .inr rfl
    · dsimp only
      rw [on_query]
      split_ifs <;> exact .inr rfl

theorem listFeedbacks_on (limit offset : Int) (s : Session FeedbackTable) :
    (listFeedbacks limit offset filter).on s =
      if s.Faulty then (.error (OfSql.ofSql .operational), s.next) else (.ok (page limit offset (s.current.shown filter)), s.next) := by
  unfold listFeedbacks
  rw [on_query]
  split_ifs
  · rfl
  · congr 2
    unfold FeedbackTable.shown page
    split_ifs
    · rw [List.map_drop]
    · rw [List.map_take, List.map_drop]

/-! ## The walk -/

/-- Since the walk began: what was shown at first is unchanged and seen up to the place of the reader, and the submissions
to be exported are open and newer. -/
structure Walking (filter : FeedbackFilter) (s₀ : Session FeedbackTable) (board : FeedbackBoard) : Prop where
  covers : board.reader.Covers (s₀.current.shown filter) (board.session.current.shown filter)
  present : ∀ record ∈ s₀.current.shown filter, record ∈ board.session.current.shown filter
  seq_le : s₀.current.seq ≤ board.session.current.seq
  newer : ∀ id ∈ board.tasks, s₀.current.seq < id
  opened : ∀ id ∈ board.tasks, ∀ row ∈ board.session.current.rows, row.id = id → row.status = lit "OPEN"
  task_le : ∀ id ∈ board.tasks, id ≤ board.session.current.seq

variable {s₀ : Session FeedbackTable}

theorem shown_id_le {record : FeedbackRecord} (h : record ∈ t.shown filter) : record.id ≤ t.seq := by
  obtain ⟨row, hrow, -, rfl⟩ := mem_shown.mp h
  exact t.seq_le row hrow

theorem walking_start : Walking filter s ⟨s, [], .start⟩ :=
  ⟨Reader.covers_start, fun _ => id, Int.le_refl _, by simp, by simp, by simp⟩

/-- A step that leaves the table as it is. -/
theorem Walking.same (h : Walking filter s₀ board) (hsame : s.current = board.session.current) :
    Walking filter s₀ { board with session := s } := by
  obtain ⟨hcovers, hpresent, hseq, hnewer, hopened, hle⟩ := h
  rw [← hsame] at hcovers hpresent hseq hopened hle
  exact ⟨hcovers, hpresent, hseq, hnewer, hopened, hle⟩

/-- A new submission, whether it gets its task or not. -/
theorem Walking.inserted {tasks : List Int} (h : Walking filter s₀ board) (hnew : s.current = (board.session.current.insert new).2)
    (htasks : ∀ id ∈ tasks, id = board.session.current.seq + 1 ∨ id ∈ board.tasks) :
    Walking filter s₀ { board with session := s, tasks } := by
  have hseq : s.current.seq = board.session.current.seq + 1 := by rw [hnew]; rfl
  have hle := h.seq_le
  obtain ⟨added, hshown, hadded⟩ := shown_insert filter new board.session.current
  rw [← hnew] at hshown
  refine ⟨?_, fun record hrecord => ?_, ?_, fun id hid => ?_, fun id hid row hrow hrowid => ?_, fun id hid => ?_⟩
  · dsimp only
    rw [hshown]
    refine h.covers.grow fun record hrecord hfirst => ?_
    have hold := shown_id_le hfirst
    rw [hadded record hrecord] at hold
    omega
  · dsimp only
    rw [hshown]
    exact List.mem_append_right _ (h.present record hrecord)
  · dsimp only
    omega
  · rcases htasks id hid with rfl | hold
    · omega
    · exact h.newer id hold
  · dsimp only at hrow
    rw [hnew] at hrow
    rcases List.mem_append.mp hrow with hold | hlast
    · rcases htasks id hid with rfl | htask
      · have := board.session.current.seq_le row hold
        omega
      · exact h.opened id htask row hold hrowid
    · obtain rfl := List.mem_singleton.mp hlast
      rfl
  · dsimp only
    rcases htasks id hid with rfl | hold
    · omega
    · have := h.task_le id hold
      omega

/-- The export of a submission that waits for it. -/
theorem Walking.exports (h : Walking filter s₀ board) (hid : id ∈ board.tasks)
    (hset : s.current = board.session.current.setStatus id (lit "OPEN") (some issue)) :
    Walking filter s₀ { board with session := s, tasks := board.tasks.erase id } := by
  have hseq : s.current.seq = board.session.current.seq := by rw [hset]; rfl
  have hshown := shown_setStatus filter issue (h.opened id hid)
  rw [← hset] at hshown
  have hunchanged : ∀ record, record.id ≤ s₀.current.seq → exported id issue record = record := by
    intro record hrecord
    have := h.newer id hid
    exact if_neg (by omega)
  have hexported : ∀ record, (exported id issue record).id = record.id := by
    intro record
    unfold exported
    split <;> rfl
  refine ⟨?_, fun record hrecord => ?_, ?_, fun i hi => h.newer i (List.mem_of_mem_erase hi), fun i hi row hrow hrowid => ?_,
    fun i hi => ?_⟩
  · dsimp only
    rw [hshown]
    refine h.covers.map fun record _ hfirst => hunchanged record ?_
    rw [← hexported record]
    exact shown_id_le hfirst
  · dsimp only
    rw [hshown, ← hunchanged record (shown_id_le hrecord)]
    exact List.mem_map_of_mem (h.present record hrecord)
  · dsimp only
    rw [hseq]
    exact h.seq_le
  · dsimp only at hrow
    rw [hset] at hrow
    obtain ⟨old, hold, rfl⟩ := List.mem_map.mp hrow
    split
    · rfl
    · rename_i hne
      rw [if_neg hne] at hrowid
      exact h.opened i (List.mem_of_mem_erase hi) old hold hrowid
  · dsimp only
    rw [hseq]
    exact h.task_le i (List.mem_of_mem_erase hi)

theorem walking_step (h : Walking filter s₀ board) (hstep : FeedbackStep size filter board act board') :
    Walking filter s₀ board' := by
  unfold FeedbackStep FeedbackBoard.step at hstep
  cases act with
  | submit new =>
    obtain rfl : board.submit new = board' := Option.some.inj hstep
    unfold FeedbackBoard.submit
    rcases createFeedback_cases new board.session with ⟨hcurrent, err, herr⟩ | ⟨hcurrent, hrecord⟩
    · split
      · rename_i hok
        rw [hok] at herr
        cases herr
      · rename_i herror
        rw [herror] at hcurrent
        exact h.same hcurrent
    · split
      · rename_i record session hok
        rw [hok] at hcurrent hrecord
        refine h.inserted hcurrent fun id hid => ?_
        rcases List.mem_cons.mp hid with rfl | hold
        · exact .inl (hrecord record rfl)
        · exact .inr hold
      · rename_i herror
        rw [herror] at hcurrent
        exact h.inserted hcurrent fun _ => .inr
  | dispatch id issue =>
    dsimp only at hstep
    unfold FeedbackBoard.dispatch at hstep
    split at hstep
    · rename_i hid
      cases hstep
      rcases updateFeedbackStatus_current id (lit "OPEN") (some issue) board.session with hcurrent | hcurrent
      · have hsame := h.same hcurrent
        exact ⟨hsame.covers, hsame.present, hsame.seq_le, fun i hi => h.newer i (List.mem_of_mem_erase hi),
          fun i hi => hsame.opened i (List.mem_of_mem_erase hi), fun i hi => hsame.task_le i (List.mem_of_mem_erase hi)⟩
      · exact h.exports hid hcurrent
    · cases hstep
  | read =>
    obtain rfl : board.read size filter = board' := Option.some.inj hstep
    unfold FeedbackBoard.read
    rw [listFeedbacks_on]
    by_cases hfault : board.session.Faulty
    · rw [if_pos hfault]
      exact h.same rfl
    · rw [if_neg hfault]
      have hsame := h.same (s := board.session.next) rfl
      exact ⟨hsame.covers.next, hsame.present, hsame.seq_le, hsame.newer, hsame.opened, hsame.task_le⟩

theorem walking_run (hrun : Run (FeedbackStep size filter) ⟨s₀, [], .start⟩ as board) : Walking filter s₀ board :=
  hrun.invariant (fun _ _ _ => walking_step) walking_start

/-- Pages that nothing comes between are a beginning of what is shown. -/
theorem seen_of_reads (hrun : Run (FeedbackStep size filter) ⟨s₀, [], .start⟩ as board) (hreads : ∀ act ∈ as, act = .read) :
    board.session.current = s₀.current ∧ board.reader.seen = (s₀.current.shown filter).take board.reader.offset := by
  have honly : Run (Only (FeedbackStep size filter) fun _ act => act = .read) _ as board := hrun.only fun act hact _ => hreads act hact
  refine honly.invariant (I := fun board => board.session.current = s₀.current ∧
    board.reader.seen = (s₀.current.shown filter).take board.reader.offset) ?_ ⟨rfl, rfl⟩
  rintro board act board' ⟨hcurrent, hseen⟩ ⟨hstep, rfl⟩
  obtain rfl : board.read size filter = board' := Option.some.inj hstep
  unfold FeedbackBoard.read
  rw [listFeedbacks_on]
  by_cases hfault : board.session.Faulty
  · rw [if_pos hfault]
    exact ⟨hcurrent, hseen⟩
  · rw [if_neg hfault, hcurrent]
    exact ⟨hcurrent, Reader.seen_eq_take size hseen⟩

/-- **Walking the pages misses nothing.** However submissions, their exports and failing statements come between the pages,
once a page comes back short every submission that the filter showed when the walk began has been seen, as it was then.
Where nothing comes between, each has been seen once and in order. -/
theorem feedback_walk {records : List FeedbackRecord} {session : Session FeedbackTable}
    (hrun : Run (FeedbackStep size filter) ⟨s₀, [], .start⟩ as board)
    (hread : (listFeedbacks size board.reader.offset filter).on board.session = (.ok records, session)) (hshort : records.length < size) :
    (∀ row ∈ s₀.current.rows, filter.admits row = true → row.record ∈ board.reader.seen ++ records) ∧
      ((∀ act ∈ as, act = .read) → board.reader.seen ++ records = s₀.current.shown filter) := by
  have hwalking := walking_run hrun
  rw [listFeedbacks_on] at hread
  split at hread
  · cases hread
  · cases hread
    refine ⟨fun row hrow hadmits => ?_, fun hreads => ?_⟩
    · exact hwalking.covers.next.complete hshort hwalking.present row.record (mem_shown.mpr ⟨row, hrow, hadmits, rfl⟩)
    · obtain ⟨hcurrent, hseen⟩ := seen_of_reads hrun hreads
      rw [hcurrent] at hshort ⊢
      have htake := Reader.seen_eq_take size hseen
      unfold Reader.next at htake
      dsimp only at htake
      rw [htake]
      rw [Reader.page_natCast, List.length_take, List.length_drop] at hshort
      exact List.take_of_length_le (by omega)

def emptyFeedback : FeedbackTable := ⟨[], 0, .nil, by simp⟩

def bugReport : NewFeedback := ⟨lit "bug_report", lit "Crash", lit "It crashed.", [], lit "ann", lit "2026-01-01T00:00:00+00:00"⟩

def oneFeedback : FeedbackTable := (emptyFeedback.insert bugReport).2

def openTickets : FeedbackFilter := ⟨none, none, some (lit "OPEN")⟩

/-- A submission and its export before the first page, which shows the old one and the new one. -/
theorem feedback_walk_one : ∃ (board : FeedbackBoard) (records : List FeedbackRecord) (session : Session FeedbackTable),
    (listFeedbacks 5 board.reader.offset openTickets).on board.session = (.ok records, session) ∧ records.length = 2 ∧
      ∀ row ∈ oneFeedback.rows, openTickets.admits row = true → row.record ∈ board.reader.seen ++ records := by
  have hrun : Run (FeedbackStep 5 openTickets) ⟨⟨oneFeedback, oneFeedback, []⟩, [], .start⟩ [.submit bugReport, .dispatch 2 41] _ :=
    .of_exec (show exec (FeedbackBoard.step 5 openTickets) _ _ = some _ from rfl)
  exact ⟨_, _, _, rfl, rfl, (feedback_walk hrun rfl (by decide)).1⟩

end Palworld.Database

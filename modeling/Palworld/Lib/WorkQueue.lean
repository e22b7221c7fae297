import Mathlib.Tactic.Common

/-!
# A bounded queue that counts unfinished tasks

`queue.Queue`. What is put counts as unfinished until the one who got it calls `task_done`, and
`join` waits until nothing is unfinished.
-/

namespace Lib

structure WorkQueue (T : Type) where
  items : List T
  unfinished : Nat

namespace WorkQueue

variable {T : Type}

def empty : WorkQueue T := ⟨[], 0⟩

/-- `put_nowait`. `none` is `queue.Full`. A queue of size 0 is never full. -/
def putNowait (maxsize : Nat) (queue : WorkQueue T) (item : T) : Option (WorkQueue T) :=
  if maxsize = 0 ∨ queue.items.length < maxsize then some ⟨queue.items ++ [item], queue.unfinished + 1⟩ else none

/-- `get`. `none` is a call that blocks. -/
def get (queue : WorkQueue T) : Option (T × WorkQueue T) :=
  match queue.items with
  | [] => none
  | item :: items => some (item, { queue with items })

/-- `task_done`. `none` is the `ValueError` of a call too many. -/
def taskDone (queue : WorkQueue T) : Option (WorkQueue T) :=
  match queue.unfinished with
  | 0 => none
  | n + 1 => some { queue with unfinished := n }

/-- `join` does not block. -/
def Joins (queue : WorkQueue T) : Prop := queue.unfinished = 0

instance (queue : WorkQueue T) : Decidable queue.Joins := inferInstanceAs (Decidable (queue.unfinished = 0))

/-- The tasks that are not finished are those in the queue and the `held` ones of those who got them. -/
def Balanced (queue : WorkQueue T) (held : Nat) : Prop := queue.unfinished = queue.items.length + held

variable {queue queue' : WorkQueue T} {item : T} {maxsize held : Nat}

theorem putNowait_eq_some (h : queue.putNowait maxsize item = some queue') :
    (maxsize = 0 ∨ queue.items.length < maxsize) ∧ queue' = ⟨queue.items ++ [item], queue.unfinished + 1⟩ := by
  unfold putNowait at h
  split at h
  · rename_i hlt
    exact ⟨hlt, (Option.some.inj h).symm⟩
  · cases h

theorem get_eq_some (h : queue.get = some (item, queue')) :
    queue.items = item :: queue'.items ∧ queue'.unfinished = queue.unfinished := by
  unfold get at h
  split at h
  · cases h
  · rename_i hitems
    cases h
    exact ⟨hitems, rfl⟩

theorem taskDone_eq_some (h : queue.taskDone = some queue') :
    queue'.items = queue.items ∧ queue.unfinished = queue'.unfinished + 1 := by
  unfold taskDone at h
  split at h
  · cases h
  · rename_i hn
    cases h
    exact ⟨rfl, hn⟩

theorem balanced_empty : (empty : WorkQueue T).Balanced 0 := rfl

theorem Balanced.putNowait (h : queue.Balanced held) (hput : queue.putNowait maxsize item = some queue') :
    queue'.Balanced held := by
  obtain ⟨-, rfl⟩ := putNowait_eq_some hput
  unfold Balanced at h ⊢
  simp only [List.length_append, List.length_singleton]
  omega

theorem Balanced.get (h : queue.Balanced held) (hget : queue.get = some (item, queue')) : queue'.Balanced (held + 1) := by
  obtain ⟨hitems, hunfinished⟩ := get_eq_some hget
  unfold Balanced at h ⊢
  rw [hitems, List.length_cons] at h
  omega

theorem Balanced.taskDone (h : queue.Balanced (held + 1)) (hdone : queue.taskDone = some queue') : queue'.Balanced held := by
  obtain ⟨hitems, hunfinished⟩ := taskDone_eq_some hdone
  unfold Balanced at h ⊢
  rw [hitems]
  omega

/-- `join` returns when nothing is queued and nothing is held. -/
theorem Balanced.joins_iff (h : queue.Balanced held) : queue.Joins ↔ queue.items = [] ∧ held = 0 := by
  unfold Balanced at h
  unfold Joins
  rw [h, Nat.add_eq_zero_iff, List.length_eq_zero_iff]

/-- One who holds a task can finish it. -/
theorem Balanced.exists_taskDone (h : queue.Balanced (held + 1)) : ∃ queue', queue.taskDone = some queue' := by
  unfold Balanced at h
  unfold WorkQueue.taskDone
  rw [h, Nat.add_succ]
  exact ⟨_, rfl⟩

end WorkQueue

end Lib

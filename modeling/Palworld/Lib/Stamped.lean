import Mathlib.Logic.Function.Basic
import Mathlib.Tactic.Common

/-!
# A memo of what is stored under a stamp

Each place holds a value with a stamp, such as the time of its last change. A memo keeps what was
computed from a place, under the stamp that was read before the value was. It is good as long as
no stamp comes back.
-/

namespace Lib

variable {ι κ α β : Type}

/-- What is at each place, and the stamps that each place ever had. -/
structure StampedStore (ι κ α : Type) where
  now : ι → Option (κ × α)
  used : List (ι × κ)

namespace StampedStore

/-- The stamps of what is there are used. -/
def Recorded (store : StampedStore ι κ α) : Prop := ∀ i k a, store.now i = some (k, a) → (i, k) ∈ store.used

def write [DecidableEq ι] (store : StampedStore ι κ α) (i : ι) (entry : Option (κ × α)) : StampedStore ι κ α where
  now := Function.update store.now i entry
  used := store.used ++ entry.toList.map fun entry => (i, entry.1)

/-- The stamp of the entry was never at the place before. -/
def Fresh (store : StampedStore ι κ α) (i : ι) (entry : Option (κ × α)) : Prop :=
  ∀ k a, entry = some (k, a) → (i, k) ∉ store.used

variable [DecidableEq ι] {store store' : StampedStore ι κ α} {i j : ι} {k : κ} {a : α} {entry : Option (κ × α)}

theorem mem_used_write (h : (j, k) ∈ store.used) : (j, k) ∈ (store.write i entry).used := List.mem_append_left _ h

theorem Recorded.write (h : store.Recorded) : (store.write i entry).Recorded := by
  intro j k a hnow
  by_cases hj : j = i
  · subst hj
    simp only [StampedStore.write, Function.update_self] at hnow
    subst hnow
    exact List.mem_append_right _ (by simp)
  · simp only [StampedStore.write, Function.update_of_ne hj] at hnow
    exact mem_used_write (h j k a hnow)

/-- A stamp that was used is only there as long as what it was put on is. -/
theorem now_of_write (hfresh : store.Fresh i entry) (hused : (j, k) ∈ store.used) (h : (store.write i entry).now j = some (k, a)) :
    store.now j = some (k, a) := by
  by_cases hj : j = i
  · subst hj
    simp only [StampedStore.write, Function.update_self] at h
    exact absurd hused (hfresh k a h)
  · simpa only [StampedStore.write, Function.update_of_ne hj] using h

end StampedStore

/-- What was computed from a place, and the stamp it goes by. -/
structure StampedMemo (ι κ β : Type) where
  place : ι
  stamp : κ
  value : β

/-- As long as the place has the stamp, the value of the memo is the value of what is there. -/
structure StampedMemo.Good (f : α → Option β) (store : StampedStore ι κ α) (memo : StampedMemo ι κ β) : Prop where
  used : (memo.place, memo.stamp) ∈ store.used
  value : ∀ a, store.now memo.place = some (memo.stamp, a) → f a = some memo.value

variable {f : α → Option β} {store store' : StampedStore ι κ α} {memo : StampedMemo ι κ β} {i : ι} {k : κ} {a : α} {b : β}

theorem StampedMemo.Good.write [DecidableEq ι] {entry : Option (κ × α)} (h : memo.Good f store) (hfresh : store.Fresh i entry) :
    memo.Good f (store.write i entry) :=
  ⟨StampedStore.mem_used_write h.used, fun a hnow => h.value a (StampedStore.now_of_write hfresh h.used hnow)⟩

/-- The stamp may be read long before the value is. Where the place has changed in between, the stamp is never
there again. -/
theorem StampedMemo.good_of_read {stamp : κ} (hstamp : (i, stamp) ∈ store.used) (hnow : store.now i = some (k, a)) (hvalue : f a = some b) :
    StampedMemo.Good f store ⟨i, stamp, b⟩ := by
  refine ⟨hstamp, fun a' hnow' => ?_⟩
  rw [hnow] at hnow'
  cases hnow'
  exact hvalue

end Lib

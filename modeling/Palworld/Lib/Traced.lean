import Mathlib.Tactic.Common

/-!
# Computations with a trace

A computation returns or raises, and it leaves a list of events behind either way.
-/

namespace Lib

structure Traced (E ε α : Type) where
  events : List E
  result : Except ε α

namespace Traced

variable {E ε α β : Type}

instance : Monad (Traced E ε) where
  pure a := ⟨[], .ok a⟩
  bind x f :=
    match x.result with
    | .ok a => ⟨x.events ++ (f a).events, (f a).result⟩
    | .error err => ⟨x.events, .error err⟩

def emit (e : E) : Traced E ε Unit := ⟨[e], .ok ()⟩

/-- A step without an event. -/
def lift (result : Except ε α) : Traced E ε α := ⟨[], result⟩

/-- `try: x except: …`. -/
def handle (x : Traced E ε α) (handler : ε → Except ε α) : Traced E ε α where
  events := x.events
  result :=
    match x.result with
    | .ok a => .ok a
    | .error err => handler err

/-- `try: x finally: cleanup`. What the cleanup raises takes the place of the result. -/
def tryFinally (x : Traced E ε α) (cleanup : Traced E ε Unit) : Traced E ε α where
  events := x.events ++ cleanup.events
  result :=
    match cleanup.result with
    | .ok () => x.result
    | .error err => .error err

variable {x : Traced E ε α} {f : α → Traced E ε β} {a : α} {err : ε}

theorem bind_ok (h : x.result = .ok a) : x >>= f = ⟨x.events ++ (f a).events, (f a).result⟩ := by
  simp [bind, h]

theorem bind_error (h : x.result = .error err) : x >>= f = ⟨x.events, .error err⟩ := by
  simp [bind, h]

@[simp]
theorem lift_ok_bind (a : α) (f : α → Traced E ε β) : lift (.ok a) >>= f = f a := rfl

theorem result_bind : (x >>= f).result = x.result >>= fun a => (f a).result := by
  cases h : x.result with
  | error => rw [bind_error h]; rfl
  | ok => rw [bind_ok h]; rfl

/-- A computation returns exactly if its first part does and the rest after it. -/
theorem bind_eq_ok {b : β} : (x >>= f).result = .ok b ↔ ∃ a, x.result = .ok a ∧ (f a).result = .ok b := by
  cases h : x.result with
  | error => simp [bind_error h]
  | ok => simp [bind_ok h]

/-! ## Returning -/

def Returns (x : Traced E ε α) : Prop := ∃ a, x.result = .ok a

theorem returns_bind : (x >>= f).Returns ↔ ∃ a, x.result = .ok a ∧ (f a).Returns := by
  unfold Returns
  simp only [bind_eq_ok]
  constructor
  · rintro ⟨b, a, hx, hf⟩
    exact ⟨a, hx, b, hf⟩
  · rintro ⟨a, hx, b, hf⟩
    exact ⟨b, a, hx, hf⟩

/-- Whether the rest returns does not depend on what the first part gives. -/
theorem returns_bind_iff {P : Prop} (h : ∀ a, (f a).Returns ↔ P) : (x >>= f).Returns ↔ x.Returns ∧ P := by
  rw [returns_bind]
  simp only [h, exists_and_right]
  rfl

theorem returns_lift {result : Except ε α} : (lift result : Traced E ε α).Returns ↔ ∃ a, result = .ok a := Iff.rfl

theorem returns_pure : (pure a : Traced E ε α).Returns := ⟨a, rfl⟩

theorem error_of_not_returns (h : ¬ x.Returns) : ∃ err, x.result = .error err := by
  cases hx : x.result with
  | error err => exact ⟨err, rfl⟩
  | ok a => exact absurd ⟨a, hx⟩ h

/-! ## The events of a kind -/

section

variable {γ : Type} (p : E → Option γ)

/-- The events of one kind. -/
def marks (x : Traced E ε α) : List γ := x.events.filterMap p

variable {p}

theorem marks_bind_ok (h : x.result = .ok a) : (x >>= f).marks p = x.marks p ++ (f a).marks p := by
  simp [bind_ok h, marks]

theorem marks_bind_error (h : x.result = .error err) : (x >>= f).marks p = x.marks p := by
  simp [bind_error h, marks]

/-- A part without such events leaves them to the rest. -/
theorem marks_bind_quiet (hx : x.marks p = []) :
    (x >>= f).marks p = match x.result with | .ok a => (f a).marks p | .error _ => [] := by
  cases h : x.result with
  | error => rw [marks_bind_error h, hx]
  | ok => rw [marks_bind_ok h, hx, List.nil_append]

theorem marks_bind_of_not_returns (h : ¬ x.Returns) : (x >>= f).marks p = x.marks p := by
  obtain ⟨err, hx⟩ := error_of_not_returns h
  exact marks_bind_error hx

theorem marks_bind_of_quiet (hf : ∀ a, (f a).marks p = []) : (x >>= f).marks p = x.marks p := by
  cases h : x.result with
  | error => exact marks_bind_error h
  | ok a => rw [marks_bind_ok h, hf, List.append_nil]

theorem quiet_bind (hx : x.marks p = []) (hf : ∀ a, (f a).marks p = []) : (x >>= f).marks p = [] := by
  rw [marks_bind_quiet hx]
  split
  · exact hf _
  · rfl

theorem quiet_lift (result : Except ε α) : (lift result : Traced E ε α).marks p = [] := rfl

theorem quiet_pure (a : α) : (pure a : Traced E ε α).marks p = [] := rfl

theorem quiet_emit {e : E} (h : p e = none) : (emit e : Traced E ε Unit).marks p = [] := by
  simp [marks, emit, h]

theorem marks_emit {e : E} {c : γ} (h : p e = some c) : (emit e : Traced E ε Unit).marks p = [c] := by
  simp [marks, emit, h]

theorem marks_handle (handler : ε → Except ε α) : (x.handle handler).marks p = x.marks p := rfl

theorem marks_tryFinally (cleanup : Traced E ε Unit) :
    (x.tryFinally cleanup).marks p = x.marks p ++ cleanup.marks p := List.filterMap_append ..

end

end Traced

end Lib

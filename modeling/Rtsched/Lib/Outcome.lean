import Mathlib.Init

/-!
Postconditions for computations that may fail.

* `Ends E x Q`: the computation `x` ends in a value with `Q` or in an error of the class `E`.
* `Ends.bind`: the rule of composition; `Ends.mono`: the rule of consequence.
-/

namespace Outcome

universe u v

variable {ε : Type u} {α β : Type v} {E E' : ε → Prop} {P Q : α → Prop} {R : β → Prop}
  {x : Except ε α} {f : α → Except ε β} {a : α} {b : β} {e : ε}

/-- The computation ends in a value with `Q` or in an error of `E`. -/
def Ends (E : ε → Prop) (x : Except ε α) (Q : α → Prop) : Prop :=
  match x with
  | .ok a => Q a
  | .error e => E e

@[simp] theorem ends_ok : Ends E (.ok a) Q ↔ Q a := Iff.rfl

@[simp] theorem ends_error : Ends E (.error e : Except ε α) Q ↔ E e := Iff.rfl

@[simp] theorem ok_bind : ((.ok a : Except ε α) >>= f) = f a := rfl

@[simp] theorem error_bind : ((.error e : Except ε α) >>= f) = .error e := rfl

theorem bind_eq_ok : (x >>= f) = .ok b ↔ ∃ a, x = .ok a ∧ f a = .ok b := by
  cases x with
  | ok a => simp
  | error e => simp

namespace Ends

/-- The rule of composition. -/
theorem bind (h : Ends E x P) (hf : ∀ a, P a → Ends E (f a) R) : Ends E (x >>= f) R := by
  cases x with
  | ok a => exact hf a h
  | error e => exact h

/-- The rule of consequence. -/
theorem mono (h : Ends E x P) (hE : ∀ e, E e → E' e) (hPQ : ∀ a, P a → Q a) : Ends E' x Q := by
  cases x with
  | ok a => exact hPQ a h
  | error e => exact hE e h

theorem weaken (h : Ends E x P) (hE : ∀ e, E e → E' e) : Ends E' x P := h.mono hE fun _ h => h

theorem imp (h : Ends E x P) (hPQ : ∀ a, P a → Q a) : Ends E x Q := h.mono (fun _ h => h) hPQ

/-- Two postconditions hold together. -/
theorem and {P' : α → Prop} (h : Ends E x P) (h' : Ends E' x P') :
    Ends E x fun a => P a ∧ P' a := by
  cases x with
  | ok a => exact ⟨h, h'⟩
  | error e => exact h

/-- The value may be named in the postcondition. -/
theorem named (h : Ends E x P) : Ends E x fun a => x = .ok a ∧ P a := by
  cases x with
  | ok a => exact ⟨rfl, h⟩
  | error e => exact h

theorem of_exists (h : ∃ a, x = .ok a ∧ Q a) : Ends E x Q := by
  obtain ⟨a, rfl, ha⟩ := h
  exact ha

theorem value (h : Ends E x Q) (hx : x = .ok a) : Q a := by
  rw [hx] at h
  exact h

theorem error (h : Ends E x Q) (hx : x = .error e) : E e := by
  rw [hx] at h
  exact h

end Ends

end Outcome

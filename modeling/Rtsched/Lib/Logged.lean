import Mathlib.Tactic.Common

/-!
Computations that may fail and record events on their way.

* `Logged.lift`, `Logged.record`: a computation that records nothing, and one event.
* `Logged.result_bind`: **without its events a computation is the plain one.**
* `Logged.returns_bind`: what a sequence returns and records.
-/

/-- The result of a computation and the events that it has recorded. -/
structure Logged (φ ε α : Type) where
  result : Except φ α
  events : List ε

namespace Logged

variable {φ ε α β : Type} {x : Logged φ ε α} {f : α → Logged φ ε β} {y : Except φ α} {a a' : α}
  {b : β} {e : ε} {l l' : List ε}

instance : Monad (Logged φ ε) where
  pure a := ⟨.ok a, []⟩
  bind x f :=
    match x.result with
    | .error err => ⟨.error err, x.events⟩
    | .ok a => ⟨(f a).result, x.events ++ (f a).events⟩

/-- A computation that records nothing. -/
def lift (y : Except φ α) : Logged φ ε α := ⟨y, []⟩

/-- One event. -/
def record (e : ε) : Logged φ ε Unit := ⟨.ok (), [e]⟩

/-- The computation returns the value and has recorded the events. -/
def Returns (x : Logged φ ε α) (a : α) (l : List ε) : Prop := x.result = .ok a ∧ x.events = l

/-! ### Without the events -/

@[simp] lemma result_pure : (pure a : Logged φ ε α).result = .ok a := rfl

@[simp] lemma result_lift : (lift y : Logged φ ε α).result = y := rfl

@[simp] lemma result_record : (record e : Logged φ ε Unit).result = .ok () := rfl

/-- **A sequence of computations without their events.** -/
@[simp] lemma result_bind : (x >>= f).result = x.result >>= fun a => (f a).result := by
  obtain ⟨y, l⟩ := x
  cases y <;> rfl

@[simp] lemma result_ite {p : Prop} [Decidable p] (x' : Logged φ ε α) :
    (if p then x else x').result = if p then x.result else x'.result := by
  split <;> rfl

/-! ### What is recorded -/

@[simp] lemma returns_pure : Returns (pure a : Logged φ ε α) a' l ↔ a = a' ∧ l = [] := by
  simp only [Returns, pure, Except.ok.injEq, eq_comm (a := l)]

@[simp] lemma returns_lift : Returns (lift y : Logged φ ε α) a l ↔ y = .ok a ∧ l = [] := by
  simp only [Returns, lift, eq_comm (a := l)]

@[simp] lemma returns_record {u : Unit} :
    Returns (record e : Logged φ ε Unit) u l ↔ l = [e] := by
  simp only [Returns, record, true_and, eq_comm (a := l)]

/-- **The rule for a sequence.** -/
lemma returns_bind : Returns (x >>= f) b l ↔
    ∃ a l₁ l₂, Returns x a l₁ ∧ Returns (f a) b l₂ ∧ l = l₁ ++ l₂ := by
  obtain ⟨y, l₁⟩ := x
  cases y with
  | error err =>
      refine iff_of_false (fun h => ?_) ?_
      · cases h.1
      · rintro ⟨a, l₁, l₂, ⟨hx, -⟩, -⟩
        cases hx
  | ok a =>
      constructor
      · rintro ⟨hb, hl⟩
        exact ⟨a, l₁, _, ⟨rfl, rfl⟩, ⟨hb, rfl⟩, hl.symm⟩
      · rintro ⟨a', l₁', l₂, ⟨ha, rfl⟩, ⟨hb, rfl⟩, rfl⟩
        obtain rfl := Except.ok.inj ha
        exact ⟨hb, rfl⟩

/-- A plain computation before the rest. -/
lemma returns_lift_bind : Returns (lift y >>= f) b l ↔ ∃ a, y = .ok a ∧ Returns (f a) b l := by
  rw [returns_bind]
  constructor
  · rintro ⟨a, l₁, l₂, hx, hf, rfl⟩
    obtain ⟨hy, rfl⟩ := returns_lift.mp hx
    exact ⟨a, hy, hf⟩
  · rintro ⟨a, hy, hf⟩
    exact ⟨a, [], l, returns_lift.mpr ⟨hy, rfl⟩, hf, rfl⟩

end Logged

import Mathlib.Data.List.Basic

/-!
A cell whose value is overridden.  Each override saves the value that it replaces and puts it back
when it ends.

* `Overrides.base`: the value under all overrides.
* `Overrides.Step.base`: **the value under all overrides does not change** as long as the oldest
  override ends last and nothing else is written while none is in force.
-/

/-- A cell with the overrides in force, the oldest first, and the value that each has saved. -/
@[ext]
structure Overrides (ι β : Type*) where
  value : β
  saved : List (ι × β)

namespace Overrides

variable {ι β : Type*} {c c' : Overrides ι β}

/-- The value under all overrides. -/
def base (c : Overrides ι β) : β := (c.saved.head?.map Prod.snd).getD c.value

/-- Without an override the value is the one under all of them. -/
lemma base_of_nil (h : c.saved = []) : c.base = c.value := by
  rw [base, h]
  rfl

variable [DecidableEq ι]

/-- What can happen to a cell: an override starts; it is written under an override; an override
ends, and the oldest one when no other is in force. -/
inductive Step (c : Overrides ι β) : Overrides ι β → Prop
  | same : Step c c
  | start (i : ι) (v : β) : Step c ⟨v, c.saved ++ [(i, c.value)]⟩
  | write (v : β) (h : c.saved ≠ []) : Step c ⟨v, c.saved⟩
  | finish {i : ι} (v : β) (hi : i ∈ c.saved.map Prod.fst)
      (hlast : (c.saved.map Prod.fst).head? = some i → c.saved = [(i, v)]) :
      Step c ⟨v, c.saved.filter fun p => p.1 ≠ i⟩

/-- **The value under all overrides does not change.** -/
theorem Step.base (h : Step c c') : c'.base = c.base := by
  cases h with
  | same => rfl
  | start i v =>
      cases hs : c.saved with
      | nil => simp [Overrides.base, hs]
      | cons p ps => simp [Overrides.base, hs]
  | write v h =>
      obtain ⟨p, ps, hs⟩ := List.exists_cons_of_ne_nil h
      simp [Overrides.base, hs]
  | @finish i v hi hlast =>
      cases hs : c.saved with
      | nil => simp [hs] at hi
      | cons p ps =>
          rw [hs] at hlast
          by_cases hp : p.1 = i
          · -- the oldest override is the last one
            obtain ⟨rfl, rfl⟩ : p = (i, v) ∧ ps = [] := by simpa using hlast (by simp [hp])
            simp [Overrides.base, hs]
          · simp [Overrides.base, hs, hp]

end Overrides

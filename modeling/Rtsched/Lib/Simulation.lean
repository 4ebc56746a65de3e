import Rtsched.Lib.Runs

/-!
Forward simulations between transition systems with labels.

* `Simulates`: every step of the one system is a step of the other with the label that it shows, or
  shows nothing and is none.
* `Simulates.run`: **a run of the one shows the labels of a run of the other.**
-/

namespace Runs

variable {σ τ ε ε' : Type*} {init : σ → Prop} {label : σ → ε → σ → Prop} {init' : τ → Prop}
  {label' : τ → ε' → τ → Prop} {shown : ε → Option ε'} {R : σ → τ → Prop}

/-- The labels of a run. -/
def labels (l : List (σ × ε × σ)) : List ε := l.map fun p => p.2.1

/-- The relation `R` is a simulation. -/
structure Simulates (init : σ → Prop) (label : σ → ε → σ → Prop) (init' : τ → Prop)
    (label' : τ → ε' → τ → Prop) (shown : ε → Option ε') (R : σ → τ → Prop) : Prop where
  start : ∀ s, init s → ∃ a, init' a ∧ R s a
  silent : ∀ s e s' a, R s a → label s e s' → shown e = none → R s' a
  step : ∀ s e s' e' a, R s a → label s e s' → shown e = some e' → ∃ a', label' a e' a' ∧ R s' a'

/-- **The run rule of simulations.** -/
theorem Simulates.run (h : Simulates init label init' label' shown R) {l : List (σ × ε × σ)} {s : σ}
    (hrun : Run init label l s) :
    ∃ l' a, Run init' label' l' a ∧ R s a ∧ labels l' = (labels l).filterMap shown := by
  induction hrun with
  | start hs =>
      obtain ⟨a, ha, hr⟩ := h.start _ hs
      exact ⟨[], a, .start ha, hr, rfl⟩
  | @step l s s' e _ hs ih =>
      obtain ⟨l', a, hrun', hr, hlabels⟩ := ih
      simp only [labels, List.map_append, List.map_cons, List.map_nil, List.filterMap_append] at *
      cases he : shown e with
      | none =>
          refine ⟨l', a, hrun', h.silent _ _ _ _ hr hs he, ?_⟩
          rw [hlabels, List.filterMap_cons_none he, List.filterMap_nil, List.append_nil]
      | some e' =>
          obtain ⟨a', hstep, hr'⟩ := h.step _ _ _ _ _ hr hs he
          refine ⟨_, a', hrun'.step hstep, hr', ?_⟩
          rw [List.map_append, hlabels, List.filterMap_cons_some he, List.filterMap_nil]
          rfl

end Runs

import Mathlib.Logic.Relation

/-!
Runs of a transition system, and the rules that prove a property of all reachable states.

* `Reach init step`: the states reached from an initial state by finitely many steps.
* `Reach.invariant`: a property of the initial states that every step keeps.
* `Reach.foldlM`: a run of an executable step function.
* `Run init step l s`: a run with the list of its steps; `Run.forall_iff` and `Run.forall_iff_of`
  compare two properties of steps along whole runs, `Run.forall_of` has an invariant that steps keep
  under a condition, and `Run.play` executes a run.
-/

namespace Runs

variable {σ : Type*} {init : σ → Prop} {step : σ → σ → Prop}

/-- The reachable states. -/
inductive Reach (init : σ → Prop) (step : σ → σ → Prop) : σ → Prop
  | start {s : σ} (h : init s) : Reach init step s
  | step {s s' : σ} (h : Reach init step s) (hs : step s s') : Reach init step s'

namespace Reach

/-- The invariant rule: a property of the initial states that every step keeps holds in every
reachable state. -/
theorem invariant {P : σ → Prop} (hinit : ∀ s, init s → P s)
    (hstep : ∀ s s', P s → step s s' → P s') {s : σ} (h : Reach init step s) : P s := by
  induction h with
  | start h => exact hinit _ h
  | step _ hs ih => exact hstep _ _ ih hs

/-- Runs with fewer initial states and fewer steps are runs. -/
theorem mono {init' : σ → Prop} {step' : σ → σ → Prop} (hi : ∀ s, init s → init' s)
    (hs : ∀ s s', step s s' → step' s s') {s : σ} (h : Reach init step s) :
    Reach init' step' s := by
  induction h with
  | start h => exact .start (hi _ h)
  | step _ h' ih => exact .step ih (hs _ _ h')

/-- The states that an executable step function computes are reachable. -/
theorem foldlM {ε : Type*} {next : σ → ε → Option σ}
    (hnext : ∀ s e s', next s e = some s' → step s s') {s s' : σ} (h : Reach init step s)
    {es : List ε} (hrun : es.foldlM next s = some s') : Reach init step s' := by
  induction es generalizing s with
  | nil =>
      obtain rfl : s = s' := by simpa using hrun
      exact h
  | cons e es ih =>
      obtain ⟨s₁, hs₁, hrest⟩ : ∃ s₁, next s e = some s₁ ∧ es.foldlM next s₁ = some s' := by
        simpa [List.foldlM_cons, Option.bind_eq_some_iff] using hrun
      exact ih (.step h (hnext s e s₁ hs₁)) hrest

end Reach

/-! ### Runs with their steps -/

section Steps

variable {ε : Type*} {label : σ → ε → σ → Prop}

/-- The states that steps of any label reach. -/
abbrev Reachable (init : σ → Prop) (label : σ → ε → σ → Prop) : σ → Prop :=
  Reach init fun s s' => ∃ e, label s e s'

/-- The runs from an initial state: the steps in their order and the state at the end. -/
inductive Run (init : σ → Prop) (label : σ → ε → σ → Prop) : List (σ × ε × σ) → σ → Prop
  | start {s : σ} (h : init s) : Run init label [] s
  | step {l : List (σ × ε × σ)} {s s' : σ} {e : ε} (h : Run init label l s) (hs : label s e s') :
      Run init label (l ++ [(s, e, s')]) s'

namespace Run

variable {P Q : σ → ε → σ → Prop} {l : List (σ × ε × σ)} {s : σ}

/-- A run ends in a reachable state. -/
theorem reach (h : Run init label l s) : Reachable init label s := by
  induction h with
  | start h => exact .start h
  | step _ hs ih => exact .step ih ⟨_, hs⟩

/-- The rule for the steps of runs: two properties that agree on every step from a reachable state
hold of all steps of the same runs. -/
theorem forall_iff (hstep : ∀ s e s', Reachable init label s → label s e s' → (P s e s' ↔ Q s e s'))
    (h : Run init label l s) :
    (∀ p ∈ l, P p.1 p.2.1 p.2.2) ↔ ∀ p ∈ l, Q p.1 p.2.1 p.2.2 := by
  induction h with
  | start _ => simp
  | step h hs ih =>
      simp only [List.forall_mem_append, List.forall_mem_singleton]
      exact and_congr ih (hstep _ _ _ h.reach hs)

/-- The rule for runs whose steps meet a condition: an invariant that such steps keep holds at the
end, and what such a step from a state of the invariant has is had by every step. -/
theorem forall_of {I : σ → Prop} (hinit : ∀ s, init s → I s)
    (hstep : ∀ s e s', I s → label s e s' → P s e s' → I s' ∧ Q s e s') (h : Run init label l s)
    (hall : ∀ p ∈ l, P p.1 p.2.1 p.2.2) : I s ∧ ∀ p ∈ l, Q p.1 p.2.1 p.2.2 := by
  induction h with
  | start h => exact ⟨hinit _ h, by simp⟩
  | step h hs ih =>
      simp only [List.forall_mem_append, List.forall_mem_singleton] at hall ⊢
      obtain ⟨hinv, hsteps⟩ := ih hall.1
      obtain ⟨hinv', hlast⟩ := hstep _ _ _ hinv hs hall.2
      exact ⟨hinv', hsteps, hlast⟩

/-- The rule for two properties of steps that agree where an invariant holds, if each of them keeps
it. -/
theorem forall_iff_of {I : σ → Prop} (hinit : ∀ s, init s → I s)
    (hstep : ∀ s e s', I s → label s e s' → (P s e s' ↔ Q s e s') ∧ (P s e s' → I s'))
    (h : Run init label l s) : (∀ p ∈ l, P p.1 p.2.1 p.2.2) ↔ ∀ p ∈ l, Q p.1 p.2.1 p.2.2 := by
  have hboth : ((∀ p ∈ l, P p.1 p.2.1 p.2.2) ↔ ∀ p ∈ l, Q p.1 p.2.1 p.2.2) ∧
      ((∀ p ∈ l, P p.1 p.2.1 p.2.2) → I s) := by
    induction h with
    | start h => exact ⟨by simp, fun _ => hinit _ h⟩
    | step h hs ih =>
        simp only [List.forall_mem_append, List.forall_mem_singleton]
        refine ⟨⟨fun ⟨hall, hlast⟩ => ⟨ih.1.mp hall, ?_⟩, fun ⟨hall, hlast⟩ => ⟨ih.1.mpr hall, ?_⟩⟩,
          fun ⟨hall, hlast⟩ => (hstep _ _ _ (ih.2 hall) hs).2 hlast⟩
        · exact (hstep _ _ _ (ih.2 hall) hs).1.mp hlast
        · exact (hstep _ _ _ (ih.2 (ih.1.mpr hall)) hs).1.mpr hlast
  exact hboth.1

/-- One executed step. -/
def extend (next : σ → ε → Option σ) (r : List (σ × ε × σ) × σ) (e : ε) :
    Option (List (σ × ε × σ) × σ) :=
  (next r.2 e).map fun s' => (r.1 ++ [(r.2, e, s')], s')

/-- The run of an executable step function. -/
def play (next : σ → ε → Option σ) (s : σ) (es : List ε) : Option (List (σ × ε × σ) × σ) :=
  es.foldlM (extend next) ([], s)

theorem of_play {next : σ → ε → Option σ} (hnext : ∀ s e s', next s e = some s' → label s e s')
    (hinit : init s) {es : List ε} {r : List (σ × ε × σ) × σ} (h : play next s es = some r) :
    Run init label r.1 r.2 := by
  have hrun : ∀ (es : List ε) (r₀ r : List (σ × ε × σ) × σ), Run init label r₀.1 r₀.2 →
      es.foldlM (extend next) r₀ = some r → Run init label r.1 r.2 := by
    intro es
    induction es with
    | nil =>
        intro r₀ r hr₀ heq
        obtain rfl : r₀ = r := by simpa using heq
        exact hr₀
    | cons e es ih =>
        intro r₀ r hr₀ heq
        obtain ⟨r₁, h₁, hrest⟩ : ∃ r₁, extend next r₀ e = some r₁ ∧
            es.foldlM (extend next) r₁ = some r := by
          simpa [List.foldlM_cons, Option.bind_eq_some_iff] using heq
        obtain ⟨s', hs', rfl⟩ := Option.map_eq_some_iff.mp h₁
        exact ih _ r (hr₀.step (hnext _ _ _ hs')) hrest
  exact hrun es ([], s) r (.start hinit) h

end Run

end Steps

end Runs

import Rtsched.Kernel.SyncSpec

/-!
Runs of the kernel with a record of what has happened.

* `Recorder`: from which states runs start, which steps they make, and what a step adds to the
  record; `Recorder.Run`: the recorded runs.
* `Kernel.Unboosted`: no mutex has boosted its owner; `Kernel.Inv.unboosted_step`: **a step without
  a boost is at most one action of the scheduler, and it sets no deadline**.
-/

namespace Rtsched

open Outcome

variable {α ρ : Type}

/-- How runs are recorded. -/
structure Recorder (α ρ : Type) where
  Initial : Kernel α → Prop
  Admits : Kernel α → Event α → Kernel α → Prop
  start : ρ
  after : Kernel α → ρ → Event α → Kernel α → ρ

/-- A kernel and the record of its run. -/
structure Recorded (α ρ : Type) where
  kernel : Kernel α
  record : ρ

namespace Recorder

variable (R : Recorder α ρ) {c c' : Recorded α ρ} {ev : Event α}

/-- The record of a run that has just started. -/
structure Starts (c : Recorded α ρ) : Prop where
  initial : R.Initial c.kernel
  record : c.record = R.start

/-- A recorded step. -/
structure Step (c : Recorded α ρ) (ev : Event α) (c' : Recorded α ρ) : Prop where
  enabled : c.kernel.Enabled ev
  exec : ∃ reply, c.kernel.exec ev = .ok (c'.kernel, reply)
  admits : R.Admits c.kernel ev c'.kernel
  record : c'.record = R.after c.kernel c.record ev c'.kernel

/-- The recorded runs. -/
abbrev Run : List (Recorded α ρ × Event α × Recorded α ρ) → Recorded α ρ → Prop :=
  Runs.Run R.Starts R.Step

/-- The recorded states that runs reach. -/
abbrev Reachable : Recorded α ρ → Prop := Runs.Reachable R.Starts R.Step

/-- The recorded state after a step. -/
def next [∀ k ev k', Decidable (R.Admits k ev k')] (c : Recorded α ρ) (ev : Event α) :
    Option (Recorded α ρ) := do
  let k' ← c.kernel.next ev
  if R.Admits c.kernel ev k' then some ⟨k', R.after c.kernel c.record ev k'⟩ else none

variable {R}

lemma next_step [∀ k ev k', Decidable (R.Admits k ev k')] (h : R.next c ev = some c') :
    R.Step c ev c' := by
  obtain ⟨k', hk', hif⟩ := Option.bind_eq_some_iff.mp h
  obtain ⟨hen, hrun⟩ := Kernel.next_eq_some.mp hk'
  split at hif
  · rename_i hadmits
    obtain rfl := Option.some.inj hif
    exact ⟨hen, hrun, hadmits, rfl⟩
  · cases hif

/-- A recorded run that starts as runs of the kernel do is one of them. -/
lemma reachable_kernel (hinit : ∀ k, R.Initial k → k.Initial) (h : R.Reachable c) :
    c.kernel.Reachable := by
  induction h with
  | start h => exact .start (hinit _ h.initial)
  | step _ hs ih =>
      obtain ⟨ev, hs⟩ := hs
      obtain ⟨reply, hrun⟩ := hs.exec
      exact .step ih ⟨ev, reply, hs.enabled, hrun⟩

/-- The recorded run of given steps after an unrecorded run from boot. -/
def trialFrom (R : Recorder ℕ ρ) [∀ k ev k', Decidable (R.Admits k ev k')]
    (setup evs : List (Event ℕ)) :
    Option (List (Recorded ℕ ρ × Event ℕ × Recorded ℕ ρ) × Recorded ℕ ρ) := do
  let k ← Kernel.trial Kernel.next setup
  Runs.Run.play R.next ⟨k, R.start⟩ evs

/-- The recorded run of given steps from boot. -/
def trial (R : Recorder ℕ ρ) [∀ k ev k', Decidable (R.Admits k ev k')] (evs : List (Event ℕ)) :
    Option (List (Recorded ℕ ρ × Event ℕ × Recorded ℕ ρ) × Recorded ℕ ρ) :=
  R.trialFrom [] evs

lemma trialFrom_run {R : Recorder ℕ ρ} [∀ k ev k', Decidable (R.Admits k ev k')]
    {setup evs : List (Event ℕ)}
    (hinit : ∀ k, Kernel.trial Kernel.next setup = some k → R.Initial k)
    {r : List (Recorded ℕ ρ × Event ℕ × Recorded ℕ ρ) × Recorded ℕ ρ}
    (h : R.trialFrom setup evs = some r) : R.Run r.1 r.2 := by
  obtain ⟨k, hk, hrun⟩ := Option.bind_eq_some_iff.mp h
  exact .of_play (fun _ _ _ => next_step) ⟨hinit k hk, rfl⟩ hrun

lemma trial_run {R : Recorder ℕ ρ} [∀ k ev k', Decidable (R.Admits k ev k')]
    (hinit : ∀ k, k.Initial → R.Initial k) {evs : List (Event ℕ)}
    {r : List (Recorded ℕ ρ × Event ℕ × Recorded ℕ ρ) × Recorded ℕ ρ}
    (h : R.trial evs = some r) : R.Run r.1 r.2 := by
  refine trialFrom_run (fun k hk => hinit k ?_) h
  simp only [Kernel.trial, List.foldlM_nil, Option.bind_eq_bind, Option.bind_eq_some_iff] at hk
  obtain ⟨k₀, hboot, hk₀⟩ := hk
  obtain rfl := Option.some.inj hk₀
  exact Kernel.booted_initial hboot

end Recorder

/-- **No action changes the timing of a timer**, but a new RT thread brings its own. -/
theorem Sched.Act.timing {s s' : Sched} {l : Label} (ha : Act l s s') {k : Timer}
    (hk : ∀ t kind, l = .spawns t kind → k ≠ .rt t) :
    (s'.ktimers.entity k).timing = (s.ktimers.entity k).timing := by
  cases ha with
  | yields _ hy => exact hy.frame.timing k
  | sleeps _ _ _ hb => exact hb.frame.timing k
  | blocks _ hb _ => exact hb.frame.timing k
  | times _ _ _ => rfl
  | wakes _ hr _ => exact hr.frame.timing k
  | sets hm _ _ _ => exact hm.frame.timing k
  | ticks hw _ _ _ _ _ => exact hw.frame.timing k
  | switches hsw => rw [hsw.ktimers]
  | @spawns _ _ t kind _ _ hkt _ _ =>
      rcases hkt with heq | ⟨timing, -, hset, -⟩
      · rw [heq]
      · rw [hset.frame.timing, (initRtThread_same s t timing (hk t kind rfl)).entity]
  | starts _ _ heq _ _ _ _ _ _ _ _ => rw [heq]

/-! ### Runs without boosts -/

/-- The action sets the deadline of a thread. -/
def Label.setsDeadline : Label → Bool
  | .sets _ => true
  | _ => false

/-- The action is a tick. -/
def Label.isTick : Label → Bool
  | .ticks _ => true
  | _ => false

/-- The action finishes a job. -/
def Label.isYield : Label → Bool
  | .yields _ _ => true
  | _ => false

/-- The step is `yieldyi`. -/
def Event.isYield : Event α → Bool
  | .yieldyi _ => true
  | _ => false

/-- The step is a tick. -/
def Event.isTick : Event α → Bool
  | .tick _ _ => true
  | _ => false

lemma Event.isTick_of_queueOp {ev : Event α} (h : ev.isQueueOp = true) : ev.isTick = false := by
  cases ev with
  | tick port fuel => cases h
  | _ => rfl

lemma Event.isYield_of_queueOp {ev : Event α} (h : ev.isQueueOp = true) : ev.isYield = false := by
  cases ev with
  | yieldyi port => cases h
  | _ => rfl

/-- The step runs `dispatch_expired`. -/
def Event.Dispatches (ev : Event α) (k : Kernel α) : Prop :=
  ev.isTick = true ∧ k.sched.started = true

instance (ev : Event α) (k : Kernel α) : Decidable (ev.Dispatches k) :=
  inferInstanceAs (Decidable (_ ∧ _))

/-- The step boosts the owner of the mutex it locks. -/
def Event.Boosts (ev : Event α) (k' : Kernel α) : Prop :=
  match ev with
  | .lock i _ => (k'.mutex i).ownerBoosted = true
  | _ => False

instance (ev : Event α) (k' : Kernel α) : Decidable (ev.Boosts k') :=
  match ev with
  | .lock _ _ => inferInstanceAs (Decidable (_ = true))
  | .yieldyi _ | .msleepyi _ _ _ | .setRtThreadStartTime _ | .tryTake _ | .take _ _ | .give _
  | .tryLock _ | .unlock _ | .trySend _ _ | .tryReceive _ | .send _ _ _ _ | .receive _ _ _
  | .retry _ | .tick _ _ | .schedule _ | .spawnCfs _ _ | .spawnRt _ _ | .start _ =>
      instDecidableFalse

namespace Kernel

variable {k k' : Kernel α} {ev : Event α} {reply : Reply α}

/-- No mutex has boosted its owner. -/
def Unboosted (k : Kernel α) : Prop := ∀ i, (k.mutex i).ownerBoosted = false

lemma Initial.unboosted (h : k.Initial) : k.Unboosted := fun i => by
  rw [h.mutex_eq]
  rfl

/-- Nothing is restored for a mutex that has not boosted its owner. -/
lemma restoreOwnerDeadline_of_unboosted (h : k.Unboosted) {i : ℕ} {owner : Option Tid}
    {k₁ : Kernel α} (hrun : k.restoreOwnerDeadline i owner = .ok k₁) : k₁ = k := by
  unfold restoreOwnerDeadline at hrun
  simp only [h i, Bool.false_eq_true, if_false] at hrun
  exact (Except.ok.inj hrun).symm

/-- An operation of a mutex that does not boost. -/
lemma MutexStep.unboosted {i : ℕ} (hs : k.sched.Inv) (h : k.Unboosted)
    (hm : MutexStep i k ev k' reply) (hno : ¬ ev.Boosts k') : k'.Unboosted := by
  have hset : ∀ (k₁ : Kernel α), k₁.Unboosted → ∀ owner,
      (k₁.setMutex i { k₁.mutex i with owner := owner }).Unboosted := by
    intro k₁ h₁ owner j
    by_cases hj : j = i
    · rw [hj, setMutex_self]
      exact h₁ i
    · rw [setMutex_of_ne _ hj]
      exact h₁ j
  cases hm with
  | taken _ _ _ => exact hset k h _
  | refused _ => exact h
  | parked _ _ hact hboost =>
      intro j
      by_cases hj : j = i
      · rw [hj]
        exact Bool.eq_false_of_not_eq_true hno
      · rw [(boostOwnerDeadline_adjusts (hact.inv hs) hboost).mutex j hj]
        exact h j
  | released _ _ hrestore _ =>
      obtain rfl := restoreOwnerDeadline_of_unboosted h hrestore
      exact hset _ h _
  | @handed t u k₁ s _ _ hrestore _ =>
      obtain rfl := restoreOwnerDeadline_of_unboosted h hrestore
      exact hset { k₁ with sched := s } h _

/-- An action that a step without a boost can be. -/
structure Quietly (ev : Event α) (k : Kernel α) (l : Label) : Prop where
  sets : l.setsDeadline = false
  tick : l.isTick = true ↔ ev.Dispatches k
  yield : l.isYield = ev.isYield
  times : ∀ t startTime, l = .times t startTime → ev = .setRtThreadStartTime startTime

/-- A step without a boost: it leaves the scheduler alone and does not dispatch, or it is one
action, which sets no deadline. -/
def Quiet (ev : Event α) (k k' : Kernel α) : Prop :=
  (k'.sched = k.sched ∧ ¬ ev.Dispatches k) ∨
    ∃ l, Sched.Act l k.sched k'.sched ∧ Quietly ev k l

/-- The labels of a step without a boost. -/
lemma labels_unboosted {ls : List Label}
    (h : ∀ i, ev = .unlock i → (k.mutex i).ownerBoosted = false) (hno : ¬ ev.Boosts k')
    (hl : Labels k k' ev ls ∨ (ev.isQueueOp = true ∧ TurnLabels ev.elapsed ls)) :
    (ls = [] ∧ ¬ ev.Dispatches k) ∨ ∃ l, ls = [l] ∧ Quietly ev k l := by
  have hnot : ev.isTick = false → ¬ ev.Dispatches k :=
    fun ht hd => absurd (hd.1.symm.trans ht) (by decide)
  have hnil : ev.isTick = false → (([] : List Label) = [] ∧ ¬ ev.Dispatches k) ∨
      ∃ l' : Label, [] = [l'] ∧ Quietly ev k l' :=
    fun ht => Or.inl ⟨rfl, hnot ht⟩
  have hone : ∀ l : Label, l.setsDeadline = false → l.isTick = false → ev.isTick = false →
      l.isYield = ev.isYield →
      (∀ t startTime, l = .times t startTime → ev = .setRtThreadStartTime startTime) →
      ([l] = [] ∧ ¬ ev.Dispatches k) ∨ ∃ l', [l] = [l'] ∧ Quietly ev k l' :=
    fun l hsets hl ht hy htimes =>
      Or.inr ⟨l, rfl, hsets, iff_of_false (by rw [hl]; decide) (hnot ht), hy, htimes⟩
  rcases hl with hl | ⟨hq, rfl | ⟨t, o, -, rfl⟩ | ⟨t, o, -, rfl⟩⟩
  · cases ev with
    | yieldyi port =>
        rcases hl with rfl | ⟨t, rfl⟩
        · exact hnil rfl
        · exact hone _ rfl rfl rfl rfl nofun
    | msleepyi port ticksPerMs msec =>
        rcases hl with rfl | ⟨t, rfl⟩
        · exact hnil rfl
        · exact hone _ rfl rfl rfl rfl nofun
    | setRtThreadStartTime startTime =>
        rcases hl with rfl | ⟨t, rfl⟩
        · exact hnil rfl
        · refine hone _ rfl rfl rfl rfl fun u n heq => ?_
          rw [(Label.times.inj heq).2]
    | take i port =>
        rcases hl with rfl | ⟨t, rfl⟩
        · exact hnil rfl
        · exact hone _ rfl rfl rfl rfl nofun
    | give i =>
        rcases hl with ⟨rfl, -⟩ | ⟨t, rfl⟩
        · exact hnil rfl
        · exact hone _ rfl rfl rfl rfl nofun
    | lock i port =>
        rcases hl with rfl | ⟨t, rfl | ⟨hb, -⟩⟩
        · exact hnil rfl
        · exact hone _ rfl rfl rfl rfl nofun
        · exact absurd hb hno
    | unlock i =>
        obtain ⟨ls₁, ls₂, rfl, rfl | ⟨hb, -⟩, ⟨rfl, -⟩ | ⟨t, rfl⟩⟩ := hl
        · exact hnil rfl
        · exact hone _ rfl rfl rfl rfl nofun
        · exact absurd hb (by simp [h i rfl])
        · exact absurd hb (by simp [h i rfl])
    | tick port fuel =>
        rcases hl with ⟨rfl, hst⟩ | ⟨rfl, hst⟩
        · exact Or.inl ⟨rfl, fun hd => absurd (hd.2.symm.trans hst) (by decide)⟩
        · exact Or.inr ⟨_, rfl, rfl, ⟨fun _ => ⟨rfl, hst⟩, fun _ => rfl⟩, rfl, nofun⟩
    | schedule port =>
        rw [hl]
        exact hone _ rfl rfl rfl rfl nofun
    | spawnCfs t priority =>
        rw [hl]
        exact hone _ rfl rfl rfl rfl nofun
    | spawnRt t timing =>
        rw [hl]
        exact hone _ rfl rfl rfl rfl nofun
    | start t =>
        rw [hl]
        exact hone _ rfl rfl rfl rfl nofun
    | _ =>
        rw [hl]
        exact hnil rfl
  · exact hnil (Event.isTick_of_queueOp hq)
  · exact hone _ rfl rfl (Event.isTick_of_queueOp hq) (Event.isYield_of_queueOp hq).symm nofun
  · exact hone _ rfl rfl (Event.isTick_of_queueOp hq) (Event.isYield_of_queueOp hq).symm nofun

/-- A step that neither boosts nor drops a mutex that boosts is at most one action, which sets no
deadline. -/
lemma Inv.quiet_step (h : k.Inv) (hen : k.Enabled ev) (hrun : k.exec ev = .ok (k', reply))
    (hdrop : ∀ i, ev = .unlock i → (k.mutex i).ownerBoosted = false) (hno : ¬ ev.Boosts k') :
    Quiet ev k k' := by
  obtain ⟨ls, hpath, hl⟩ := (h.does hen hrun).path
  rcases labels_unboosted hdrop hno hl with ⟨rfl, hd⟩ | ⟨l, rfl, hquiet⟩
  · exact Or.inl ⟨hpath.eq_of_nil, hd⟩
  · exact Or.inr ⟨l, hpath.act, hquiet⟩

/-- **A step without a boost** boosts no mutex and is at most one action, which sets no deadline. -/
theorem Inv.unboosted_step (h : k.Inv) (hu : k.Unboosted) (hen : k.Enabled ev)
    (hrun : k.exec ev = .ok (k', reply)) (hno : ¬ ev.Boosts k') :
    k'.Unboosted ∧ Quiet ev k k' := by
  constructor
  · cases hm : ev.mutex with
    | none =>
        intro i
        rw [exec_mutex hrun hm]
        exact hu i
    | some i => exact ((exec_mutexOp h.sched hen hm).value hrun).unboosted h.sched hu hno
  · exact h.quiet_step hen hrun (fun i _ => hu i) hno

end Kernel

namespace Recorder

variable {R : Recorder α ρ} {c c' : Recorded α ρ} {ev : Event α}

/-- The runs start at boot and never boost. -/
structure BoostFree (R : Recorder α ρ) : Prop where
  initial : ∀ k, R.Initial k → k.Initial
  admits : ∀ k ev k', R.Admits k ev k' → ¬ ev.Boosts k'

/-- What a step of a run without boosts does to the scheduler. -/
theorem Step.quiet (hR : R.BoostFree) (h : c.kernel.Inv) (hu : c.kernel.Unboosted)
    (hs : R.Step c ev c') :
    c'.kernel.Inv ∧ c'.kernel.Unboosted ∧ Kernel.Quiet ev c.kernel c'.kernel := by
  obtain ⟨reply, hrun⟩ := hs.exec
  exact ⟨(h.does hs.enabled hrun).inv h,
    h.unboosted_step hu hs.enabled hrun (hR.admits _ _ _ hs.admits)⟩

end Recorder

end Rtsched

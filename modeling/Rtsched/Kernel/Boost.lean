import Rtsched.Kernel.Deadline
import Rtsched.Lib.Overrides

/-!
The deadline boosts of the mutexes.

* `Kernel.boosts`: runs without dispatch and without expired timers that record which mutexes boost
  their owners, and the expiration each timer had before its first boost.
* `Kernel.cell`: a scheduler timer with its boosts, as a cell that is overridden; `cell_step`: **a
  step that meets the condition makes at most one step of each cell**.
* `Kernel.boosts_restored`: **in every run whose steps meet the condition, once no mutex boosts its
  owner, each timer has the expiration it had before its first boost**.
-/

namespace Rtsched

open Outcome

variable {α : Type}

/-! ### The expirations of scheduler timers -/

/-- The thread that gives up the processor by the action. -/
def Label.parks : Label → Option Tid
  | .yields t _ | .sleeps t _ | .blocks t _ _ => some t
  | _ => none

namespace Sched

variable {s s' : Sched} {t u : Tid} {l : Label} {T : Timer}

/-- The scheduler timers of all threads; that of the CFS threads is always there. -/
def schedulerTimers (s : Sched) : List Timer :=
  .cfs :: s.spawned.filterMap s.threadSchedulerKtimer

lemma mem_schedulerTimers :
    T ∈ s.schedulerTimers ↔ T = .cfs ∨ ∃ t ∈ s.spawned, s.threadSchedulerKtimer t = some T := by
  simp [schedulerTimers]

lemma threadSchedulerKtimer_cases (h : s.threadSchedulerKtimer t = some T) :
    s.kind t = .cfs ∧ T = .cfs ∨ s.kind t = .rt ∧ T = .rt t := by
  unfold threadSchedulerKtimer at h
  split at h
  · rename_i hkind
    exact Or.inl ⟨hkind, (Option.some.inj h).symm⟩
  · rename_i hkind
    exact Or.inr ⟨hkind, (Option.some.inj h).symm⟩
  · cases h

/-- A scheduler timer is that of the CFS threads or of an RT thread. -/
lemma schedulerTimers_cases (hT : T ∈ s.schedulerTimers) :
    T = .cfs ∨ ∃ t ∈ s.spawned, s.kind t = .rt ∧ T = .rt t := by
  rcases mem_schedulerTimers.mp hT with rfl | ⟨t, ht, hk⟩
  · exact Or.inl rfl
  · exact (threadSchedulerKtimer_cases hk).imp And.right fun h => ⟨t, ht, h⟩

lemma ne_wait_of_mem (hT : T ∈ s.schedulerTimers) : T ≠ .wait := by
  rcases schedulerTimers_cases hT with rfl | ⟨t, -, -, rfl⟩
  · simp
  · simp

lemma threadSchedulerKtimer_congr (h : s'.kind t = s.kind t) :
    s'.threadSchedulerKtimer t = s.threadSchedulerKtimer t := by
  rw [threadSchedulerKtimer, threadSchedulerKtimer, h]

lemma threadSchedulerExpireAt_congr (h : s'.threadSchedulerKtimer t = s.threadSchedulerKtimer t)
    (hexp : ∀ T, s.threadSchedulerKtimer t = some T →
      (s'.ktimers.entity T).expireAt = (s.ktimers.entity T).expireAt) :
    s'.threadSchedulerExpireAt t = s.threadSchedulerExpireAt t := by
  rw [threadSchedulerExpireAt, threadSchedulerExpireAt, h]
  cases hk : s.threadSchedulerKtimer t with
  | none => rfl
  | some T => exact hexp T hk

/-- Two threads have the same scheduler timer only if they are CFS threads. -/
lemma eq_or_cfs (h : s.threadSchedulerKtimer t = some T) (h' : s.threadSchedulerKtimer u = some T) :
    t = u ∨ (s.kind t = .cfs ∧ s.kind u = .cfs) := by
  rcases threadSchedulerKtimer_cases h with ⟨ht, rfl⟩ | ⟨-, rfl⟩
  · rcases threadSchedulerKtimer_cases h' with ⟨hu, -⟩ | ⟨-, hc⟩
    · exact Or.inr ⟨ht, hu⟩
    · cases hc
  · exact Or.inl (eq_of_threadSchedulerKtimer h')

/-- A timer that is not expired is as before. -/
lemma expireAt_of_frame {K : Timer → Prop} (hf : KTimers.Frame K s.ktimers s'.ktimers) (hK : ¬ K T)
    (hlt : s'.ktimers.nowTicks < (s.ktimers.entity T).expireAt) :
    (s'.ktimers.entity T).expireAt = (s.ktimers.entity T).expireAt := by
  have hsame := hf.same T hK fun hc => absurd hc.2 (not_le.mpr hlt)
  rw [hsame.entity]

/-- **An action other than a tick leaves a timer that is not expired alone**, unless its thread
gives up the processor or its deadline is set. -/
theorem Act.expireAt_eq (ha : Act l s s') (hsets : l.setsDeadline = false)
    (htick : l.isTick = false) (hT : T ∈ s.schedulerTimers)
    (hlt : s'.ktimers.nowTicks < (s.ktimers.entity T).expireAt)
    (hparks : ∀ t, l.parks = some t → s.threadSchedulerKtimer t ≠ some T) :
    (s'.ktimers.entity T).expireAt = (s.ktimers.entity T).expireAt := by
  have hwait := ne_wait_of_mem hT
  cases ha with
  | yields _ hy => exact expireAt_of_frame hy.frame (hparks _ rfl) hlt
  | sleeps _ _ _ hb =>
      refine expireAt_of_frame hb.frame ?_ hlt
      rintro (hc | hc)
      · exact hwait hc
      · exact hparks _ rfl hc
  | blocks _ hb _ =>
      refine expireAt_of_frame hb.frame ?_ hlt
      rintro (hc | hc)
      · exact hwait hc
      · exact hparks _ rfl hc
  | times _ _ _ => rfl
  | @wakes _ s₁ u o _ hr _ =>
      by_cases hu : s.kind u = .rt ∧ T = .rt u
      · obtain ⟨hkind, rfl⟩ := hu
        refine ((hr.rt hkind).2 ?_).1
        have hlt' : s.ktimers.nowTicks < (s.ktimers.entity (.rt u)).expireAt :=
          hr.nowTicks.symm.trans_lt hlt
        simpa [KTimers.expired, KTimerEntity.isExpiredAt] using hlt'
      · refine expireAt_of_frame hr.frame ?_ hlt
        rintro (hc | hc)
        · exact hwait hc
        · exact hu hc
  | sets _ _ _ _ => cases hsets
  | ticks _ _ _ _ _ _ => cases htick
  | switches hsw => rw [hsw.ktimers]
  | @spawns _ _ u kind hu hsp hk _ _ =>
      rcases hk with heq | ⟨timing, -, hset, -⟩
      · rw [heq]
      · have hne : T ≠ .rt u := by
          rintro rfl
          rcases schedulerTimers_cases hT with hc | ⟨t, ht, -, hc⟩
          · cases hc
          · exact hu (Timer.rt.inj hc ▸ ht)
        have hinit := initRtThread_same s u timing hne
        rw [← hinit.entity] at hlt ⊢
        exact expireAt_of_frame hset.frame hne hlt
  | starts _ _ hk _ _ _ _ _ _ _ _ => rw [hk]

/-- A thread that gives up the processor is the current one; it yields or becomes blocked. -/
lemma Act.of_parks (ha : Act l s s') (ht : l.parks = some t) :
    s.current = some t ∧ (l.isYield = true ∨
      ((s'.state t).isBlocked = true ∧ (s.state t).isBlocked = false)) := by
  cases ha with
  | yields hact _ =>
      obtain rfl := Option.some.inj ht
      exact ⟨hact.current, Or.inl rfl⟩
  | sleeps hact hx _ hb =>
      obtain rfl := Option.some.inj ht
      exact ⟨hact.current, Or.inr ⟨(congrArg _ hb.moves.state_self).trans hx, hact.awake⟩⟩
  | blocks hact hb _ =>
      obtain rfl := Option.some.inj ht
      exact ⟨hact.current, Or.inr ⟨congrArg _ hb.moves.state_self, hact.awake⟩⟩
  | _ => cases ht

/-- The scheduler timers stay. -/
lemma Act.mem_schedulerTimers (ha : Act l s s') (hT : T ∈ s.schedulerTimers) :
    T ∈ s'.schedulerTimers := by
  rcases Sched.mem_schedulerTimers.mp hT with rfl | ⟨t, ht, hk⟩
  · exact Sched.mem_schedulerTimers.mpr (Or.inl rfl)
  · exact Sched.mem_schedulerTimers.mpr (Or.inr ⟨t, ha.spawned_subset ht,
      (threadSchedulerKtimer_congr (ha.kind_eq ht)).trans hk⟩)

lemma Path.mem_schedulerTimers {ls : List Label} (hp : Path ls s s') (hT : T ∈ s.schedulerTimers) :
    T ∈ s'.schedulerTimers := by
  induction hp with
  | nil => exact hT
  | cons ha _ ih => exact ih (ha.mem_schedulerTimers hT)

end Sched

/-! ### Runs with boosts -/

/-- The mutexes that boost their owners, in the order of their boosts, and the expiration that each
timer had before its first boost. -/
structure Boosts where
  order : List ℕ
  before : Timer → Option ℕ

/-- The mutex whose guard the step drops. -/
def Event.drops : Event α → Option ℕ
  | .unlock i => some i
  | _ => none

/-- The mutex that the step locks. -/
def Event.locks : Event α → Option ℕ
  | .lock i _ => some i
  | _ => none

namespace Kernel

/-- The scheduler timer of the owner of a mutex. -/
def ownerTimer (k : Kernel α) (i : ℕ) : Option Timer :=
  (k.mutex i).owner.bind k.sched.threadSchedulerKtimer

/-- The mutex that boosts its owner since the step. -/
def newBoost (k : Kernel α) (ev : Event α) (k' : Kernel α) : Option ℕ :=
  ev.locks.filter fun i => (k'.mutex i).ownerBoosted && !(k.mutex i).ownerBoosted

/-- No scheduler timer expires in the step, and a deadline that a drop restores has not passed. -/
structure NoneExpires (k : Kernel α) (ev : Event α) (k' : Kernel α) : Prop where
  timers : ∀ T ∈ k.sched.schedulerTimers,
    k'.sched.ktimers.nowTicks < (k.sched.ktimers.entity T).expireAt
  restored : ∀ i ∈ ev.drops, (k.mutex i).ownerBoosted = true →
    k'.sched.ktimers.nowTicks < (k.mutex i).ownerOriginalDeadlineAt

/-- Runs without dispatch and without expired timers, from any state in which no mutex boosts its
owner. -/
def boosts (α : Type) : Recorder α Boosts where
  Initial k := k.Reachable ∧ k.Unboosted
  Admits k ev k' := ¬ ev.Dispatches k ∧ NoneExpires k ev k'
  start := ⟨[], fun _ => none⟩
  after k r ev k' :=
    { order := r.order.filter (fun i => ev.drops ≠ some i) ++ (newBoost k ev k').toList
      before := fun T => (r.before T).or
        (if (newBoost k ev k').bind k.ownerTimer = some T then
          some (k.sched.ktimers.entity T).expireAt else none) }

/-- The mutexes that boost the timer. -/
def boosters (c : Recorded α Boosts) (T : Timer) : List ℕ :=
  c.record.order.filter fun i => c.kernel.ownerTimer i = some T

/-- A scheduler timer with its boosts: each mutex that boosts it has saved an expiration. -/
def cell (c : Recorded α Boosts) (T : Timer) : Overrides ℕ ℕ where
  value := (c.kernel.sched.ktimers.entity T).expireAt
  saved := (boosters c T).map fun i => (i, (c.kernel.mutex i).ownerOriginalDeadlineAt)

/-- Once no mutex boosts its owner, each timer has the expiration it had before its first boost. -/
def Restored (c : Recorded α Boosts) : Prop :=
  c.kernel.Unboosted → ∀ T, ∀ e ∈ c.record.before T, (c.kernel.sched.ktimers.entity T).expireAt = e

/-- The mutex that boosted a timer first is dropped when no other boosts it; and no thread gives up
the processor whose timer has been boosted and is boosted no more. -/
structure InOrder (c : Recorded α Boosts) (ev : Event α) (c' : Recorded α Boosts) : Prop where
  drops : ∀ i ∈ ev.drops, ∀ T ∈ c.kernel.ownerTimer i, (boosters c T).head? = some i →
    boosters c T = [i]
  parks : ∀ t ∈ c.kernel.sched.current,
    (ev.isYield = true ∨ blocksIn c.kernel c'.kernel t = true) →
    ∀ T ∈ c.kernel.sched.threadSchedulerKtimer t, c.record.before T ≠ none → boosters c T ≠ []

/-- What holds of the record of the boosts. -/
structure BoostInv (c : Recorded α Boosts) : Prop where
  kernel : c.kernel.Inv
  owner : ∀ i, ∀ o ∈ (c.kernel.mutex i).owner, o ∈ c.kernel.sched.spawned
  owned : ∀ i, (c.kernel.mutex i).ownerBoosted = true → (c.kernel.mutex i).owner ≠ none
  order : ∀ i, i ∈ c.record.order ↔ (c.kernel.mutex i).ownerBoosted = true
  known : ∀ T, c.record.before T ≠ none → T ∈ c.kernel.sched.schedulerTimers
  fresh : ∀ T, c.record.before T = none → boosters c T = []

/-- Under all boosts, each timer has the expiration it had before the first one. -/
def Based (c : Recorded α Boosts) : Prop := ∀ T, ∀ e ∈ c.record.before T, (cell c T).base = e

/-! ### What a step does to the boosts -/

/-- The timer is that of a thread that gives up the processor by the step. -/
def ParksTimer (k : Kernel α) (ev : Event α) (k' : Kernel α) (T : Timer) : Prop :=
  ∃ t ∈ k.sched.current, (ev.isYield = true ∨ blocksIn k k' t = true) ∧
    k.sched.threadSchedulerKtimer t = some T

/-- What a step does to the boosts: nothing; a lock sets the deadline of the owner; or the drop of a
mutex that boosts its owner restores it. -/
inductive BoostStep (k : Kernel α) (ev : Event α) (k' : Kernel α) : Prop
  | quiet (hboosted : ∀ i, (k'.mutex i).ownerBoosted = (k.mutex i).ownerBoosted)
      (hmutex : ∀ i, (k.mutex i).ownerBoosted = true → k'.mutex i = k.mutex i)
      (hdrops : ∀ i ∈ ev.drops, (k.mutex i).ownerBoosted = false)
      (hexp : ∀ T ∈ k.sched.schedulerTimers, ¬ ParksTimer k ev k' T →
        (k'.sched.ktimers.entity T).expireAt = (k.sched.ktimers.entity T).expireAt)
  | raises {i : ℕ} {owner : Tid} (hlocks : ev.locks = some i) (hdrops : ev.drops = none)
      (howner : (k.mutex i).owner = some owner) (hothers : ∀ j ≠ i, k'.mutex j = k.mutex j)
      (hself : k'.mutex i = if (k.mutex i).ownerBoosted then k.mutex i
        else ⟨some owner, k.sched.threadSchedulerExpireAt owner, true⟩)
      (hexp : ∀ T ∈ k.sched.schedulerTimers, k.ownerTimer i ≠ some T → ¬ ParksTimer k ev k' T →
        (k'.sched.ktimers.entity T).expireAt = (k.sched.ktimers.entity T).expireAt)
      (hparks : ∀ T, k.ownerTimer i = some T → ¬ ParksTimer k ev k' T)
  | restores {i : ℕ} (hdrops : ev.drops = some i) (hlocks : ev.locks = none)
      (hboosted : (k.mutex i).ownerBoosted = true) (hothers : ∀ j ≠ i, k'.mutex j = k.mutex j)
      (hself : (k'.mutex i).ownerBoosted = false)
      (hexp : ∀ T ∈ k.sched.schedulerTimers, k.ownerTimer i ≠ some T →
        (k'.sched.ktimers.entity T).expireAt = (k.sched.ktimers.entity T).expireAt)
      (hset : ∀ T ∈ k.ownerTimer i,
        (k'.sched.ktimers.entity T).expireAt = (k.mutex i).ownerOriginalDeadlineAt)

variable {k k' : Kernel α} {ev : Event α} {reply : Reply α} {i : ℕ} {T : Timer}

lemma ownerTimer_of_owner {owner : Tid} (h : (k.mutex i).owner = some owner) :
    k.ownerTimer i = k.sched.threadSchedulerKtimer owner := by
  rw [ownerTimer, h]
  rfl

/-- A boost does nothing, or it sets the deadline of the owner. -/
lemma boostOwnerDeadline_cases {owner waiter : Tid} {deadlineAt : ℕ} (hs : k.sched.Inv)
    (h : k.boostOwnerDeadline i owner waiter deadlineAt = .ok k') :
    k' = k ∨ (¬ (k.sched.kind owner = .cfs ∧ k.sched.kind waiter = .cfs) ∧
      ∃ s expireAt, Sched.Act (.sets owner) k.sched s ∧ Sched.Sets owner expireAt k.sched s ∧
        s.ktimers.nowTicks = k.sched.ktimers.nowTicks ∧
        k' = setMutex { k with sched := s } i (if (k.mutex i).ownerBoosted then k.mutex i
          else ⟨(k.mutex i).owner, k.sched.threadSchedulerExpireAt owner, true⟩)) := by
  unfold boostOwnerDeadline at h
  simp only at h
  split at h
  · exact Or.inl (Except.ok.inj h).symm
  · rename_i hkinds
    split at h
    · exact Or.inl (Except.ok.inj h).symm
    · obtain ⟨s, hset, h⟩ := bind_eq_ok.mp h
      obtain ⟨-, hnow, -, hsets⟩ :=
        (Sched.setThreadSchedulerExpireAt_spec hs.toBase owner _).value hset
      exact Or.inr ⟨hkinds, s, _, (Sched.setThreadSchedulerExpireAt_act hs owner _).value hset,
        hsets, hnow, (Except.ok.inj h).symm⟩

/-- Restoring does nothing, or it sets the deadline of the owner to the one that was saved. -/
lemma restoreOwnerDeadline_cases {owner : Tid} (hs : k.sched.Inv)
    (h : k.restoreOwnerDeadline i (some owner) = .ok k') :
    ((k.mutex i).ownerBoosted = false ∧ k' = k) ∨ ((k.mutex i).ownerBoosted = true ∧
      ∃ s, Sched.Act (.sets owner) k.sched s ∧
        Sched.Sets owner (k.mutex i).ownerOriginalDeadlineAt k.sched s ∧
        s.ktimers.nowTicks = k.sched.ktimers.nowTicks ∧
        k' = setMutex { k with sched := s } i ⟨(k.mutex i).owner, 0, false⟩) := by
  unfold restoreOwnerDeadline at h
  simp only at h
  split at h
  · rename_i hboosted
    obtain ⟨s, hset, h⟩ := bind_eq_ok.mp h
    obtain ⟨-, hnow, -, hsets⟩ :=
      (Sched.setThreadSchedulerExpireAt_spec hs.toBase owner _).value hset
    exact Or.inr ⟨hboosted, s, (Sched.setThreadSchedulerExpireAt_act hs owner _).value hset, hsets,
      hnow, (Except.ok.inj h).symm⟩
  · rename_i hboosted
    exact Or.inl ⟨Bool.eq_false_of_not_eq_true hboosted, (Except.ok.inj h).symm⟩

/-- A step that is no operation of a mutex leaves the boosts alone. -/
lemma boostStep_of_other (h : k.Inv) (hen : k.Enabled ev) (hrun : k.exec ev = .ok (k', reply))
    (hev : ev.mutex = none) (hd : ¬ ev.Dispatches k)
    (hlt : ∀ T ∈ k.sched.schedulerTimers,
      k'.sched.ktimers.nowTicks < (k.sched.ktimers.entity T).expireAt) : BoostStep k ev k' := by
  have hmutex : k'.mutex = k.mutex := exec_mutex hrun hev
  have hdrop : ∀ i, ev = .unlock i → (k.mutex i).ownerBoosted = false := by
    rintro i rfl
    cases hev
  have hno : ¬ ev.Boosts k' := by
    cases ev with
    | lock i port => cases hev
    | _ => exact id
  have hdrops : ev.drops = none := by
    cases ev with
    | unlock i => cases hev
    | _ => rfl
  refine .quiet (fun i => by rw [hmutex]) (fun i _ => by rw [hmutex])
    (fun i hi => by rw [hdrops] at hi; cases hi) fun T hT hnot => ?_
  rcases h.quiet_step hen hrun hdrop hno with ⟨heq, -⟩ | ⟨l, hact, hquiet⟩
  · rw [heq]
  · have htick : l.isTick = false := Bool.eq_false_of_not_eq_true fun ht => hd (hquiet.tick.mp ht)
    refine hact.expireAt_eq hquiet.sets htick hT (hlt T hT) fun t ht hk => hnot ?_
    obtain ⟨hcur, hgives⟩ := hact.of_parks ht
    refine ⟨t, hcur, hgives.imp hquiet.yield.symm.trans fun hb => ?_, hk⟩
    simp [blocksIn, hb]

/-- The owner of a mutex changes without its boost. -/
lemma setOwner_boosted (k : Kernel α) (i : ℕ) (owner : Option Tid) :
    ((k.setMutex i { k.mutex i with owner := owner }).mutex i).ownerBoosted =
      (k.mutex i).ownerBoosted := by
  rw [setMutex_self]

/-- A free mutex is taken. -/
lemma boostStep_of_taken {owner : Option Tid} (hno : ¬ (k.mutex i).ownerBoosted = true)
    (hdrops : ev.drops = none) :
    BoostStep k ev (k.setMutex i { k.mutex i with owner := owner }) := by
  refine .quiet (fun j => ?_) (fun j hj => setMutex_of_ne _ ?_ _)
    (fun j hj => by rw [hdrops] at hj; cases hj) fun T _ _ => rfl
  · by_cases hj : j = i
    · rw [hj, setOwner_boosted]
    · rw [setMutex_of_ne _ hj]
  · rintro rfl
    exact hno hj

/-- A lock that parks its caller. -/
lemma boostStep_of_parked {port : TimerPort} {t owner : Tid} {s : Sched} (h : k.Inv)
    (hsp : owner ∈ k.sched.spawned) (howner : (k.mutex i).owner = some owner) (hne : owner ≠ t)
    (hact : Sched.Act (.blocks t (.mutex i) port.elapsedTicksSinceCurrentReload) k.sched s)
    (hboost : boostOwnerDeadline { k with sched := s } i owner t
      (k.sched.threadSchedulerExpireAt t) = .ok k')
    (hlt : ∀ T ∈ k.sched.schedulerTimers,
      k'.sched.ktimers.nowTicks < (k.sched.ktimers.entity T).expireAt) :
    BoostStep k (.lock i port) k' := by
  obtain ⟨hcur, hgives⟩ := hact.of_parks (t := t) rfl
  have hblocked := hgives.resolve_left (by simp [Label.isYield])
  have hkind : ∀ u ∈ k.sched.spawned, s.kind u = k.sched.kind u := fun u hu => hact.kind_eq hu
  -- the timers that the caller does not park
  have hkept : ∀ T ∈ k.sched.schedulerTimers, k.sched.threadSchedulerKtimer t ≠ some T →
      s.ktimers.nowTicks < (k.sched.ktimers.entity T).expireAt →
      (s.ktimers.entity T).expireAt = (k.sched.ktimers.entity T).expireAt := by
    intro T hT hk hlt
    refine hact.expireAt_eq rfl rfl hT hlt fun u hu => ?_
    obtain rfl := Option.some.inj hu
    exact hk
  rcases boostOwnerDeadline_cases (hact.inv h.sched) hboost with rfl | ⟨hkinds, s₂, d, hact₂, hsets,
    hnow, rfl⟩
  · refine .quiet (fun _ => rfl) (fun _ _ => rfl) (fun _ hj => by cases hj) fun T hT hnot => ?_
    refine hkept T hT (fun hk => hnot ⟨t, hcur, Or.inr ?_, hk⟩) (hlt T hT)
    simp [blocksIn, hblocked]
  · have htimer : ∀ u ∈ k.sched.spawned,
        s.threadSchedulerKtimer u = k.sched.threadSchedulerKtimer u := fun u hu =>
      Sched.threadSchedulerKtimer_congr (hkind u hu)
    have hdistinct : ∀ T, k.sched.threadSchedulerKtimer owner = some T →
        k.sched.threadSchedulerKtimer t ≠ some T := by
      intro T ho ht
      rcases Sched.eq_or_cfs ho ht with heq | ⟨hco, hct⟩
      · exact hne heq
      · exact hkinds ⟨(hkind owner hsp).trans hco, (hkind t (h.sched.spawned t hcur)).trans hct⟩
    have hlt₂ : ∀ T ∈ k.sched.schedulerTimers,
        s.ktimers.nowTicks < (k.sched.ktimers.entity T).expireAt := fun T hT =>
      hnow.symm.trans_lt (hlt T hT)
    have hstate : s₂.state t = s.state t := congrArg Place.state (congrFun hact₂.sets_place t)
    refine .raises rfl rfl howner (fun j hj => setMutex_of_ne _ hj _) ?_ (fun T hT hT' hnot => ?_)
      fun T hT => ?_
    · rw [setMutex_self, ← howner]
      split
      · rfl
      · congr 1
        exact Sched.threadSchedulerExpireAt_congr (htimer owner hsp) fun T hT =>
          hkept T (Sched.mem_schedulerTimers.mpr (Or.inr ⟨owner, hsp, hT⟩)) (hdistinct T hT)
            (hlt₂ T (Sched.mem_schedulerTimers.mpr (Or.inr ⟨owner, hsp, hT⟩)))
    · have hsame := hkept T hT (fun hk => hnot ⟨t, hcur, Or.inr (by
        simpa [blocksIn, setMutex, hstate] using hblocked), hk⟩) (hlt₂ T hT)
      rw [← hsame]
      refine Sched.expireAt_of_frame hsets.frame (fun hc => hT' ?_)
        ((hlt T hT).trans_eq hsame.symm)
      rw [ownerTimer_of_owner howner, ← htimer owner hsp]
      exact hc
    · rintro ⟨u, hu, -, hk⟩
      obtain rfl : t = u := Option.some.inj (hcur.symm.trans hu)
      exact hdistinct T (ownerTimer_of_owner howner ▸ hT) hk

/-- A drop. -/
lemma boostStep_of_restored {t : Tid} {k₁ : Kernel α} (h : k.Inv) (hcur : k.sched.current = some t)
    (howner : (k.mutex i).owner = some t) (hrestore : k.restoreOwnerDeadline i (some t) = .ok k₁)
    (hothers : ∀ j ≠ i, k'.mutex j = k₁.mutex j)
    (hself : (k'.mutex i).ownerBoosted = (k₁.mutex i).ownerBoosted)
    (hle : k₁.sched.ktimers.nowTicks ≤ k'.sched.ktimers.nowTicks)
    (hexp : ∀ T ∈ k₁.sched.schedulerTimers,
      k'.sched.ktimers.nowTicks < (k₁.sched.ktimers.entity T).expireAt →
      (k'.sched.ktimers.entity T).expireAt = (k₁.sched.ktimers.entity T).expireAt)
    (hnone : NoneExpires k (.unlock i) k') : BoostStep k (.unlock i) k' := by
  rcases restoreOwnerDeadline_cases h.sched hrestore with ⟨hno, rfl⟩ | ⟨hboosted, s, hact, hsets,
    hnow, rfl⟩
  · refine .quiet (fun j => ?_) (fun j hj => hothers j ?_) (fun j hj => ?_) fun T hT _ =>
      hexp T hT (hnone.timers T hT)
    · by_cases hj : j = i
      · rw [hj]
        exact hself
      · rw [hothers j hj]
    · rintro rfl
      exact absurd (hno.symm.trans hj) (by decide)
    · obtain rfl := Option.some.inj hj
      exact hno
  · refine .restores rfl rfl hboosted (fun j hj => (hothers j hj).trans (setMutex_of_ne _ hj _))
      (hself.trans (by rw [setMutex_self])) (fun T hT hT' => ?_) fun T hT => ?_
    · have hlt := hnone.timers T hT
      have hsame : (s.ktimers.entity T).expireAt = (k.sched.ktimers.entity T).expireAt :=
        Sched.expireAt_of_frame hsets.frame
          (fun hc => hT' ((ownerTimer_of_owner howner).trans hc)) (hle.trans_lt hlt)
      exact (hexp T (hact.mem_schedulerTimers hT) (hlt.trans_eq hsame.symm)).trans hsame
    · have hk := (ownerTimer_of_owner howner).symm.trans hT
      have hlt := hnone.restored i rfl hboosted
      have hset : (s.ktimers.entity T).expireAt = (k.mutex i).ownerOriginalDeadlineAt :=
        hsets.expireAt ((hnow.symm.le.trans hle).trans_lt hlt) T hk
      refine (hexp T (hact.mem_schedulerTimers ?_) (hlt.trans_eq hset.symm)).trans hset
      exact Sched.mem_schedulerTimers.mpr (Or.inr ⟨t, h.sched.spawned t hcur, hk⟩)

/-- **Every step without dispatch and without expired timers does one of these things to the
boosts.** -/
theorem boostStep (h : k.Inv) (hsp : ∀ i, ∀ o ∈ (k.mutex i).owner, o ∈ k.sched.spawned)
    (howned : ∀ i, (k.mutex i).ownerBoosted = true → (k.mutex i).owner ≠ none)
    (hen : k.Enabled ev) (hrun : k.exec ev = .ok (k', reply)) (hd : ¬ ev.Dispatches k)
    (hnone : NoneExpires k ev k') : BoostStep k ev k' := by
  cases hev : ev.mutex with
  | none => exact boostStep_of_other h hen hrun hev hd hnone.timers
  | some i =>
      have hdrops : (ev = .tryLock i ∨ ∃ port, ev = .lock i port) → ev.drops = none := by
        rintro (rfl | ⟨port, rfl⟩)
        · rfl
        · rfl
      cases (exec_mutexOp h.sched hen hev).value hrun with
      | taken hev' _ hfree =>
          exact boostStep_of_taken (fun hb => howned i hb hfree) (hdrops hev')
      | refused hev' =>
          exact .quiet (fun _ => rfl) (fun _ _ => rfl)
            (fun j hj => by rw [hdrops hev'] at hj; cases hj) fun _ _ _ => rfl
      | parked howner hne hact hboost =>
          exact boostStep_of_parked h (hsp i _ howner) howner hne hact hboost hnone.timers
      | @released t k₁ hcur howner hrestore _ =>
          exact boostStep_of_restored h hcur howner hrestore (fun j hj => setMutex_of_ne _ hj _)
            (setOwner_boosted k₁ i none) le_rfl (fun _ _ _ => rfl) hnone
      | @handed t u k₁ s hcur howner hrestore hact =>
          have hinv₁ := (restoreOwnerDeadline_adjusts h.sched hrestore).inv h.sched
          exact boostStep_of_restored h hcur howner hrestore (fun j hj => setMutex_of_ne _ hj _)
            (setOwner_boosted { k₁ with sched := s } i (some u)) (hact.now_le hinv₁)
            (fun T hT hlt => hact.expireAt_eq rfl rfl hT hlt fun _ hc => by cases hc) hnone

/-! ### The owners -/

/-- The owner of a mutex is a thread. -/
lemma owners_spawned (h : k.Inv) (hsp : ∀ i, ∀ o ∈ (k.mutex i).owner, o ∈ k.sched.spawned)
    (hen : k.Enabled ev) (hrun : k.exec ev = .ok (k', reply)) :
    ∀ i, ∀ o ∈ (k'.mutex i).owner, o ∈ k'.sched.spawned := by
  obtain ⟨ls, hpath, -⟩ := (h.does hen hrun).path
  -- only a thread of the step becomes an owner
  have hset : ∀ j o, (k'.mutex j).owner = (k.mutex j).owner → o ∈ (k'.mutex j).owner →
      o ∈ k'.sched.spawned := fun j o heq ho => hpath.spawned_subset (hsp j o (heq ▸ ho))
  intro j o ho
  by_cases hj : ev.mutex = some j
  · cases (exec_mutexOp h.sched hen hj).value hrun with
    | taken _ hcur _ =>
        obtain rfl : _ = o := Option.some.inj ((congrArg _ (Function.update_self ..)).symm.trans ho)
        exact h.sched.spawned _ hcur
    | refused _ => exact hset j o rfl ho
    | parked _ _ hact hboost =>
        exact hset j o (boostOwnerDeadline_adjusts (hact.inv h.sched) hboost).owner ho
    | released _ _ _ _ => cases (congrArg MutexState.owner (Function.update_self ..)).symm.trans ho
    | @handed t u k₁ s _ _ hrestore hact =>
        -- a waiter is blocked, so it is a thread
        have hinv₁ := (restoreOwnerDeadline_adjusts h.sched hrestore).inv h.sched
        obtain rfl : u = o := Option.some.inj ((congrArg _ (Function.update_self ..)).symm.trans ho)
        have hmem : u ∈ k₁.sched.waiters (.mutex j) := List.mem_of_mem_head? hact.head?_wakes
        refine hact.spawned_subset (hinv₁.mem_spawned ((hinv₁.ok u).kind_ne_idle ?_))
        rw [((hinv₁.ok u).waits _ hmem).1]
        rfl
  · exact hset j o (owner_of_ne h.sched hen hrun hj) ho

/-- The owner of a mutex is a thread in every run. -/
lemma Reachable.owners_spawned (h : k.Reachable) :
    ∀ i, ∀ o ∈ (k.mutex i).owner, o ∈ k.sched.spawned := by
  refine (Runs.Reach.invariant
    (P := fun k => k.Inv ∧ ∀ i, ∀ o ∈ (k.mutex i).owner, o ∈ k.sched.spawned)
    (fun k hi => ⟨hi.inv, fun i o ho => ?_⟩)
    (fun k k' ⟨hinv, hsp⟩ ⟨ev, reply, hen, hrun⟩ => ?_) h).2
  · rw [hi.mutex_eq] at ho
    cases ho
  · exact ⟨(hinv.does hen hrun).inv hinv, Kernel.owners_spawned hinv hsp hen hrun⟩

/-! ### The cells -/

variable {c c' : Recorded α Boosts}

/-- What given mutexes have saved for a timer. -/
def savedBy (k : Kernel α) (l : List ℕ) (T : Timer) : List (ℕ × ℕ) :=
  (l.filter fun i => k.ownerTimer i = some T).map fun i => (i, (k.mutex i).ownerOriginalDeadlineAt)

lemma cell_saved : (cell c T).saved = savedBy c.kernel c.record.order T := rfl

lemma map_fst_saved : (cell c T).saved.map Prod.fst = boosters c T := by
  simp [cell, Function.comp_def]

lemma saved_eq_nil : (cell c T).saved = [] ↔ boosters c T = [] := List.map_eq_nil_iff

lemma savedBy_append (l l' : List ℕ) : k.savedBy (l ++ l') T = k.savedBy l T ++ k.savedBy l' T := by
  rw [savedBy, List.filter_append, List.map_append]
  rfl

/-- Mutexes that are left alone have saved the same. -/
lemma savedBy_congr {l : List ℕ} (htimer : ∀ i ∈ l, k'.ownerTimer i = k.ownerTimer i)
    (hmutex : ∀ i ∈ l, k'.mutex i = k.mutex i) : k'.savedBy l T = k.savedBy l T := by
  have hfilter : (l.filter fun i => k'.ownerTimer i = some T) =
      l.filter fun i => k.ownerTimer i = some T :=
    List.filter_congr fun i hi => by rw [htimer i hi]
  rw [savedBy, hfilter]
  refine List.map_congr_left fun i hi => ?_
  rw [hmutex i (List.mem_of_mem_filter hi)]

lemma savedBy_filter_ne (l : List ℕ) (i : ℕ) :
    k.savedBy (l.filter fun j => j ≠ i) T = (k.savedBy l T).filter fun p => p.1 ≠ i := by
  rw [savedBy, savedBy, List.filter_map, List.filter_filter, List.filter_filter]
  refine congrArg _ (List.filter_congr fun j _ => ?_)
  exact Bool.and_comm ..

/-- A cell whose overrides stay is written only under an override. -/
lemma cell_step_of_saved (hs : (cell c' T).saved = (cell c T).saved)
    (hv : (c'.kernel.sched.ktimers.entity T).expireAt = (c.kernel.sched.ktimers.entity T).expireAt ∨
      boosters c T ≠ []) : (cell c T).Step (cell c' T) := by
  rcases hv with hv | hne
  · have heq : cell c' T = cell c T := Overrides.ext hv hs
    rw [heq]
    exact .same
  · have heq : cell c' T = ⟨(cell c' T).value, (cell c T).saved⟩ := Overrides.ext rfl hs
    rw [heq]
    exact .write _ fun hnil => hne (saved_eq_nil.mp hnil)

/-- The record after a step. -/
lemma order_eq (hrecord : c'.record = (boosts α).after c.kernel c.record ev c'.kernel) :
    c'.record.order = c.record.order.filter (fun i => ev.drops ≠ some i) ++
      (newBoost c.kernel ev c'.kernel).toList := by
  rw [hrecord]
  rfl

lemma filter_drops (hdrops : ev.drops = none) (l : List ℕ) :
    l.filter (fun i => ev.drops ≠ some i) = l := by
  simp [hdrops]

lemma newBoost_of_locks (hlocks : ev.locks = none) : newBoost k ev k' = none := by
  rw [newBoost, hlocks]
  rfl

lemma newBoost_of_boosted (h : ∀ i, (k'.mutex i).ownerBoosted = (k.mutex i).ownerBoosted) :
    newBoost k ev k' = none := by
  simp [newBoost, h]

lemma BoostInv.mem_boosters (h : BoostInv c) (hb : (c.kernel.mutex i).ownerBoosted = true)
    (ho : c.kernel.ownerTimer i = some T) : i ∈ boosters c T :=
  List.mem_filter.mpr ⟨(h.order i).mpr hb, by simpa using ho⟩

/-- A mutex that starts to boost the timer saves its expiration. -/
lemma cell_step_of_new (horder : c'.record.order = c.record.order ++ [i])
    (hold : c'.kernel.savedBy c.record.order T = (cell c T).saved)
    (ho : c'.kernel.ownerTimer i = some T)
    (hsave : (c'.kernel.mutex i).ownerOriginalDeadlineAt = (cell c T).value) :
    (cell c T).Step (cell c' T) := by
  have hsingle : c'.kernel.savedBy [i] T = [(i, (cell c T).value)] := by
    simp [savedBy, ho, hsave]
  have heq : cell c' T = ⟨(cell c' T).value, (cell c T).saved ++ [(i, (cell c T).value)]⟩ := by
    refine Overrides.ext rfl ?_
    rw [cell_saved, horder, savedBy_append, hold, hsingle]
  rw [heq]
  exact .start i _

/-- A mutex that boosts the timer is dropped. -/
lemma cell_step_of_dropped (hsaved : (cell c' T).saved = (cell c T).saved.filter fun p => p.1 ≠ i)
    (hset : (cell c' T).value = (c.kernel.mutex i).ownerOriginalDeadlineAt)
    (hmem : i ∈ boosters c T) (hlast : (boosters c T).head? = some i → boosters c T = [i]) :
    (cell c T).Step (cell c' T) := by
  have heq : cell c' T = ⟨(c.kernel.mutex i).ownerOriginalDeadlineAt,
      (cell c T).saved.filter fun p => p.1 ≠ i⟩ := Overrides.ext hset hsaved
  rw [heq]
  refine .finish _ ?_ fun hhead => ?_
  · rw [map_fst_saved]
    exact hmem
  · rw [map_fst_saved] at hhead
    rw [cell, hlast hhead]
    rfl

/-- A mutex that boosts another timer has saved nothing. -/
lemma filter_saved_eq_self (ho : c.kernel.ownerTimer i ≠ some T) :
    (cell c T).saved.filter (fun p => p.1 ≠ i) = (cell c T).saved := by
  refine List.filter_eq_self.mpr fun p hp => ?_
  have hmem : p.1 ∈ boosters c T := map_fst_saved (c := c) ▸ List.mem_map_of_mem hp
  have htimer : c.kernel.ownerTimer p.1 = some T := by simpa using List.of_mem_filter hmem
  have hne : p.1 ≠ i := by
    rintro heq
    exact ho (heq ▸ htimer)
  simpa using hne

/-- **A step that meets the condition makes at most one step of each cell.** -/
theorem cell_step (h : BoostInv c) (hstep : BoostStep c.kernel ev c'.kernel)
    (hrecord : c'.record = (boosts α).after c.kernel c.record ev c'.kernel)
    (htimer : ∀ i, (c'.kernel.mutex i).owner = (c.kernel.mutex i).owner →
      c'.kernel.ownerTimer i = c.kernel.ownerTimer i)
    (hT : T ∈ c.kernel.sched.schedulerTimers)
    (hdrops : ∀ i ∈ ev.drops, c.kernel.ownerTimer i = some T → (boosters c T).head? = some i →
      boosters c T = [i])
    (hparks : ParksTimer c.kernel ev c'.kernel T → boosters c T ≠ []) :
    (cell c T).Step (cell c' T) := by
  have hsaved : ∀ l : List ℕ, (∀ i ∈ l, c'.kernel.mutex i = c.kernel.mutex i) →
      c'.kernel.savedBy l T = c.kernel.savedBy l T := fun l hl =>
    savedBy_congr (fun i hi => htimer i (by rw [hl i hi])) hl
  have horder := order_eq hrecord
  -- a timer that is not set is written only by a thread that gives up the processor
  have hwritten : (¬ ParksTimer c.kernel ev c'.kernel T →
      (c'.kernel.sched.ktimers.entity T).expireAt =
        (c.kernel.sched.ktimers.entity T).expireAt) →
      (c'.kernel.sched.ktimers.entity T).expireAt = (c.kernel.sched.ktimers.entity T).expireAt ∨
        boosters c T ≠ [] := by
    intro hexp
    by_cases hp : ParksTimer c.kernel ev c'.kernel T
    · exact Or.inr (hparks hp)
    · exact Or.inl (hexp hp)
  cases hstep with
  | quiet hboosted hmutex hnot hexp =>
      have hsame : c'.record.order = c.record.order := by
        rw [horder, newBoost_of_boosted hboosted, Option.toList_none, List.append_nil]
        refine List.filter_eq_self.mpr fun i hi => ?_
        have hne : ev.drops ≠ some i := fun hd =>
          absurd ((hnot i hd).symm.trans ((h.order i).mp hi)) (by decide)
        simpa using hne
      refine cell_step_of_saved ?_ (hwritten (hexp T hT))
      rw [cell_saved, hsame, hsaved _ fun i hi => hmutex i ((h.order i).mp hi), cell_saved]
  | @raises i owner hlocks hnone howner hothers hself hexp hnot =>
      rw [filter_drops hnone] at horder
      by_cases hb : (c.kernel.mutex i).ownerBoosted = true
      · -- the mutex has saved the deadline before
        rw [if_pos hb] at hself
        have hmutex : ∀ j, c'.kernel.mutex j = c.kernel.mutex j := fun j => by
          by_cases hj : j = i
          · rw [hj, hself]
          · exact hothers j hj
        rw [newBoost_of_boosted fun j => by rw [hmutex j], Option.toList_none,
          List.append_nil] at horder
        refine cell_step_of_saved ?_ ?_
        · rw [cell_saved, horder, hsaved _ fun j _ => hmutex j, cell_saved]
        · by_cases ho : c.kernel.ownerTimer i = some T
          · exact Or.inr (List.ne_nil_of_mem (h.mem_boosters hb ho))
          · exact hwritten (hexp T hT ho)
      · rw [if_neg hb] at hself
        have hnew : newBoost c.kernel ev c'.kernel = some i := by
          simp [newBoost, hlocks, hself, hb]
        have howner' : c'.kernel.ownerTimer i = c.kernel.ownerTimer i :=
          htimer i (by rw [hself, howner])
        rw [hnew, Option.toList_some] at horder
        have hold : c'.kernel.savedBy c.record.order T = (cell c T).saved := by
          refine hsaved _ fun j hj => hothers j ?_
          rintro rfl
          exact hb ((h.order j).mp hj)
        by_cases ho : c.kernel.ownerTimer i = some T
        · refine cell_step_of_new horder hold (howner'.trans ho) ?_
          rw [hself, Sched.threadSchedulerExpireAt, ← ownerTimer_of_owner howner, ho]
          rfl
        · refine cell_step_of_saved ?_ (hwritten (hexp T hT ho))
          rw [cell_saved, horder, savedBy_append, hold]
          simp [savedBy, howner', ho]
  | @restores i hdrop hlocks hb hothers hself hexp hset =>
      have hfilter : c'.record.order = c.record.order.filter fun j => j ≠ i := by
        rw [horder, newBoost_of_locks hlocks, Option.toList_none, List.append_nil, hdrop]
        refine List.filter_congr fun j _ => ?_
        simp [eq_comm]
      have hsaved' : (cell c' T).saved = (cell c T).saved.filter fun p => p.1 ≠ i := by
        rw [cell_saved, hfilter,
          hsaved _ fun j hj => hothers j (by simpa using List.of_mem_filter hj),
          savedBy_filter_ne, cell_saved]
      by_cases ho : c.kernel.ownerTimer i = some T
      · exact cell_step_of_dropped hsaved' (hset T ho) (h.mem_boosters hb ho) (hdrops i hdrop ho)
      · exact cell_step_of_saved (hsaved'.trans (filter_saved_eq_self ho)) (Or.inl (hexp T hT ho))

/-! ### The runs -/

/-- A mutex that boosts its owner after a step has the owner that it had before. -/
lemma BoostStep.owner (h : BoostStep k ev k') (hb : (k'.mutex i).ownerBoosted = true) :
    (k'.mutex i).owner = (k.mutex i).owner := by
  cases h with
  | quiet hboosted hmutex _ _ => rw [hmutex i ((hboosted i).symm.trans hb)]
  | @raises j owner _ _ howner hothers hself _ _ =>
      by_cases hij : i = j
      · subst hij
        rw [hself]
        split
        · rfl
        · exact howner.symm
      · rw [hothers i hij]
  | @restores j _ _ _ hothers hself _ _ =>
      rw [hothers i]
      rintro rfl
      exact absurd (hself.symm.trans hb) (by decide)

/-- A mutex that boosts its owner has one. -/
lemma BoostStep.owned (h : BoostStep k ev k')
    (howned : ∀ i, (k.mutex i).ownerBoosted = true → (k.mutex i).owner ≠ none)
    (hb : (k'.mutex i).ownerBoosted = true) : (k'.mutex i).owner ≠ none := by
  rw [h.owner hb]
  cases h with
  | quiet hboosted _ _ _ => exact howned i ((hboosted i).symm.trans hb)
  | @raises j owner _ _ howner hothers _ _ _ =>
      by_cases hij : i = j
      · rw [hij, howner]
        simp
      · exact howned i (by rwa [hothers i hij] at hb)
  | @restores j _ _ hboosted hothers _ _ _ =>
      by_cases hij : i = j
      · exact howned i (hij ▸ hboosted)
      · exact howned i (by rwa [hothers i hij] at hb)

/-- A mutex that starts to boost its owner. -/
lemma newBoost_eq_some (h : newBoost k ev k' = some i) :
    ev.locks = some i ∧ (k'.mutex i).ownerBoosted = true ∧ (k.mutex i).ownerBoosted = false := by
  obtain ⟨hlocks, hb⟩ := Option.filter_eq_some_iff.mp h
  simp only [Bool.and_eq_true, Bool.not_eq_true'] at hb
  exact ⟨hlocks, hb.1, hb.2⟩

/-- The timer of an owner that is boosted anew is not parked in the same step. -/
lemma BoostStep.not_parks (h : BoostStep k ev k') (hnew : newBoost k ev k' = some i)
    (ho : k.ownerTimer i = some T) : ¬ ParksTimer k ev k' T := by
  obtain ⟨hlocks, hb', hb⟩ := newBoost_eq_some hnew
  cases h with
  | quiet hboosted _ _ _ => exact absurd (hb'.symm.trans ((hboosted i).trans hb)) (by decide)
  | @raises j _ hlocks' _ _ _ _ _ hparks =>
      obtain rfl := Option.some.inj (hlocks.symm.trans hlocks')
      exact hparks T ho
  | restores _ hlocks' _ _ _ _ _ => cases hlocks.symm.trans hlocks'

/-- The mutexes of the record are those that boost their owners. -/
lemma BoostStep.mem_order (h : BoostStep c.kernel ev c'.kernel)
    (hrecord : c'.record = (boosts α).after c.kernel c.record ev c'.kernel)
    (horder : ∀ i, i ∈ c.record.order ↔ (c.kernel.mutex i).ownerBoosted = true) :
    i ∈ c'.record.order ↔ (c'.kernel.mutex i).ownerBoosted = true := by
  rw [order_eq hrecord, List.mem_append, List.mem_filter, Option.mem_toList, horder]
  cases h with
  | quiet hboosted _ hnot _ =>
      rw [newBoost_of_boosted hboosted, hboosted i]
      have hne : (c.kernel.mutex i).ownerBoosted = true → ev.drops ≠ some i := fun hb hd =>
        absurd ((hnot i hd).symm.trans hb) (by decide)
      simpa using hne
  | @raises j owner hlocks hnone howner hothers hself _ _ =>
      by_cases hij : i = j
      · subst hij
        cases hb : (c.kernel.mutex i).ownerBoosted with
        | true => simp [hnone, hself, hb]
        | false => simp [newBoost, hnone, hlocks, hself, hb]
      · have hnew : newBoost c.kernel ev c'.kernel ≠ some i := fun hnew =>
          hij (Option.some.inj ((newBoost_eq_some hnew).1.symm.trans hlocks))
        simp [hnone, hothers i hij, hnew]
  | @restores j hdrop hlocks _ hothers hself _ _ =>
      rw [newBoost_of_locks hlocks, hdrop]
      by_cases hij : i = j
      · subst hij
        simp [hself]
      · simp [hothers i hij, Ne.symm hij]

/-- The scheduler timer of an owner is one of the timers. -/
lemma BoostInv.mem_schedulerTimers (h : BoostInv c) (ho : c.kernel.ownerTimer i = some T) :
    T ∈ c.kernel.sched.schedulerTimers := by
  obtain ⟨o, howner, hk⟩ := Option.bind_eq_some_iff.mp ho
  exact Sched.mem_schedulerTimers.mpr (Or.inr ⟨o, h.owner i o howner, hk⟩)

/-- What a recorded step does to the boosts. -/
lemma BoostInv.boostStep (h : BoostInv c) (hs : (boosts α).Step c ev c') :
    BoostStep c.kernel ev c'.kernel := by
  obtain ⟨reply, hrun⟩ := hs.exec
  exact Kernel.boostStep h.kernel h.owner h.owned hs.enabled hrun hs.admits.1 hs.admits.2

/-- Every step is a sequence of actions. -/
lemma BoostInv.path (h : BoostInv c) (hs : (boosts α).Step c ev c') :
    ∃ ls, Sched.Path ls c.kernel.sched c'.kernel.sched := by
  obtain ⟨reply, hrun⟩ := hs.exec
  obtain ⟨ls, hpath, -⟩ := (h.kernel.does hs.enabled hrun).path
  exact ⟨ls, hpath⟩

/-- The timer of an owner does not change. -/
lemma BoostInv.ownerTimer_eq (h : BoostInv c) (hs : (boosts α).Step c ev c')
    (howner : (c'.kernel.mutex i).owner = (c.kernel.mutex i).owner) :
    c'.kernel.ownerTimer i = c.kernel.ownerTimer i := by
  obtain ⟨ls, hpath⟩ := h.path hs
  rw [ownerTimer, ownerTimer, howner]
  exact Option.bind_congr fun o ho =>
    Sched.threadSchedulerKtimer_congr (hpath.kind_eq (h.owner i o ho))

/-- The expirations before the first boosts after a step. -/
lemma before_eq (hrecord : c'.record = (boosts α).after c.kernel c.record ev c'.kernel)
    (T : Timer) :
    c'.record.before T = (c.record.before T).or
      (if (newBoost c.kernel ev c'.kernel).bind c.kernel.ownerTimer = some T then
        some (c.kernel.sched.ktimers.entity T).expireAt else none) := by
  rw [hrecord]
  rfl

/-- **Every step keeps what holds of the record of the boosts.** -/
theorem BoostInv.step (h : BoostInv c) (hs : (boosts α).Step c ev c') : BoostInv c' := by
  obtain ⟨reply, hrun⟩ := hs.exec
  obtain ⟨ls, hpath⟩ := h.path hs
  have hstep := h.boostStep hs
  have horder : ∀ i, i ∈ c'.record.order ↔ (c'.kernel.mutex i).ownerBoosted = true := fun i =>
    hstep.mem_order hs.record h.order
  refine ⟨(h.kernel.does hs.enabled hrun).inv h.kernel,
    owners_spawned h.kernel h.owner hs.enabled hrun, fun i => hstep.owned h.owned, horder,
    fun T hT => ?_, fun T hT => ?_⟩
  · refine hpath.mem_schedulerTimers ?_
    by_cases hold : c.record.before T = none
    · rw [before_eq hs.record, hold, Option.none_or] at hT
      split at hT
      · rename_i hnew
        obtain ⟨i, -, ho⟩ := Option.bind_eq_some_iff.mp hnew
        exact h.mem_schedulerTimers ho
      · exact absurd rfl hT
    · exact h.known T hold
  · -- a mutex that boosts the timer did so before, or the timer has just been recorded
    obtain ⟨hold, hnone⟩ := Option.or_eq_none_iff.mp ((before_eq hs.record T).symm.trans hT)
    have hno : (newBoost c.kernel ev c'.kernel).bind c.kernel.ownerTimer ≠ some T := fun hnew => by
      rw [if_pos hnew] at hnone
      cases hnone
    refine List.eq_nil_iff_forall_not_mem.mpr fun i hi => ?_
    obtain ⟨hmem, ho'⟩ := List.mem_filter.mp hi
    have ho : c.kernel.ownerTimer i = some T := by
      rw [← h.ownerTimer_eq hs (hstep.owner ((horder i).mp hmem))]
      simpa using ho'
    rw [order_eq hs.record, List.mem_append, Option.mem_toList] at hmem
    rcases hmem with hmem | hnew
    · have hboosters : i ∈ boosters c T :=
        List.mem_filter.mpr ⟨List.mem_of_mem_filter hmem, by simpa using ho⟩
      rw [h.fresh T hold] at hboosters
      cases hboosters
    · exact hno (Option.bind_eq_some_iff.mpr ⟨i, hnew, ho⟩)

/-- At the start no mutex boosts its owner. -/
lemma BoostInv.starts (hi : (boosts α).Starts c) : BoostInv c := by
  obtain ⟨hreach, hno⟩ := hi.initial
  have hrecord : c.record = ⟨[], fun _ => none⟩ := hi.record
  refine ⟨reachable_inv hreach, hreach.owners_spawned, fun i hb => ?_, fun i => ?_, fun T hT => ?_,
    fun T _ => ?_⟩
  · exact absurd ((hno i).symm.trans hb) (by decide)
  · simp [hrecord, hno i]
  · rw [hrecord] at hT
    exact absurd rfl hT
  · rw [boosters, hrecord]
    rfl

lemma reachable_boostInv (h : (boosts α).Reachable c) : BoostInv c :=
  h.invariant (fun _ hi => .starts hi) fun _ _ hc ⟨_, hs⟩ => hc.step hs

/-- **Every step that meets the condition keeps the expirations under the boosts.** -/
theorem Based.step (h : BoostInv c) (hbased : Based c) (hs : (boosts α).Step c ev c')
    (hcond : InOrder c ev c') : Based c' := by
  have hstep := h.boostStep hs
  have hcell : ∀ T, T ∈ c.kernel.sched.schedulerTimers →
      (ParksTimer c.kernel ev c'.kernel T → boosters c T ≠ []) →
        (cell c' T).base = (cell c T).base :=
    fun T hT hparks => (cell_step h hstep hs.record (fun _ => h.ownerTimer_eq hs) hT
      (fun i hi ho => hcond.drops i hi T ho) hparks).base
  intro T e he
  rw [before_eq hs.record] at he
  cases hold : c.record.before T with
  | some e₀ =>
      obtain rfl : e₀ = e := by simpa [hold] using he
      have hknown : c.record.before T ≠ none := by simp [hold]
      rw [hcell T (h.known T hknown) fun ⟨t, ht, hgives, hk⟩ =>
        hcond.parks t ht hgives T hk hknown]
      exact hbased T e₀ hold
  | none =>
      rw [hold, Option.none_or] at he
      split at he
      · rename_i hnew
        obtain rfl := Option.some.inj he
        obtain ⟨i, hnew, ho⟩ := Option.bind_eq_some_iff.mp hnew
        rw [hcell T (h.mem_schedulerTimers ho) fun hp => absurd hp (hstep.not_parks hnew ho)]
        exact Overrides.base_of_nil (saved_eq_nil.mpr (h.fresh T hold))
      · cases he

/-- Without boosts each timer has the expiration under all of them. -/
lemma Based.restored (h : BoostInv c) (hbased : Based c) : Restored c := by
  intro hno T e he
  have hnil : boosters c T = [] := by
    refine List.eq_nil_iff_forall_not_mem.mpr fun i hi => ?_
    exact absurd ((hno i).symm.trans ((h.order i).mp (List.mem_of_mem_filter hi))) (by decide)
  rw [← hbased T e he]
  exact (Overrides.base_of_nil (saved_eq_nil.mpr hnil)).symm

/-- **Boost restoration.**  In every run without dispatch and without expired timers whose steps
meet the condition, once no mutex boosts its owner, each timer that has been boosted has the
expiration it had before its first boost. -/
theorem boosts_restored {l : List (Recorded α Boosts × Event α × Recorded α Boosts)}
    (h : (boosts α).Run l c) (hall : ∀ p ∈ l, InOrder p.1 p.2.1 p.2.2) :
    Restored c ∧ ∀ p ∈ l, Restored p.2.2 := by
  have hstart : ∀ c, (boosts α).Starts c → BoostInv c ∧ Based c := fun c hi =>
    ⟨.starts hi, fun T e he => by
      rw [hi.record] at he
      cases he⟩
  have hstep : ∀ c ev c', BoostInv c ∧ Based c → (boosts α).Step c ev c' → InOrder c ev c' →
      (BoostInv c' ∧ Based c') ∧ Restored c' := fun c ev c' ⟨hinv, hbased⟩ hs hcond => by
    have hbased' := hbased.step hinv hs hcond
    exact ⟨⟨hinv.step hs, hbased'⟩, hbased'.restored (hinv.step hs)⟩
  obtain ⟨⟨hinv, hbased⟩, hsteps⟩ := h.forall_of hstart hstep hall
  exact ⟨hbased.restored hinv, hsteps⟩

/-! ### Two nested mutexes -/

instance (k : Kernel α) (ev : Event α) (k' : Kernel α) : Decidable (NoneExpires k ev k') :=
  decidable_of_iff ((∀ T ∈ k.sched.schedulerTimers,
    k'.sched.ktimers.nowTicks < (k.sched.ktimers.entity T).expireAt) ∧
      ∀ i ∈ ev.drops, (k.mutex i).ownerBoosted = true →
        k'.sched.ktimers.nowTicks < (k.mutex i).ownerOriginalDeadlineAt)
    ⟨fun h => ⟨h.1, h.2⟩, fun h => ⟨h.timers, h.restored⟩⟩

instance (k : Kernel α) (ev : Event α) (k' : Kernel α) : Decidable ((boosts α).Admits k ev k') :=
  inferInstanceAs (Decidable (¬ _ ∧ _))

instance (c : Recorded α Boosts) (ev : Event α) (c' : Recorded α Boosts) :
    Decidable (InOrder c ev c') :=
  decidable_of_iff ((∀ i ∈ ev.drops, ∀ T ∈ c.kernel.ownerTimer i, (boosters c T).head? = some i →
      boosters c T = [i]) ∧ ∀ t ∈ c.kernel.sched.current,
      (ev.isYield = true ∨ blocksIn c.kernel c'.kernel t = true) →
      ∀ T ∈ c.kernel.sched.threadSchedulerKtimer t, c.record.before T ≠ none → boosters c T ≠ [])
    ⟨fun h => ⟨h.1, h.2⟩, fun h => ⟨h.drops, h.parks⟩⟩

/-- Two RT threads wait for a semaphore each; then a CFS thread runs. -/
def setup : List (Event ℕ) :=
  [.spawnRt 2 ⟨200, 100, 100⟩, .spawnRt 3 ⟨300, 150, 150⟩, .spawnCfs 1 10, .start 0,
    .tick ⟨some 9, some 0⟩ 8, .schedule ⟨some 9, some 0⟩, .take (.binary 0) ⟨some 89, some 84⟩,
    .schedule ⟨some 89, some 84⟩, .take (.binary 1) ⟨some 129, some 124⟩,
    .schedule ⟨some 129, some 124⟩]

/-- The CFS thread takes two mutexes; both RT threads wait for one of them and boost it. -/
def contend : List (Event ℕ) :=
  [.tryLock 0, .tryLock 1, .give (.binary 1), .schedule ⟨some 399, some 399⟩,
    .lock 0 ⟨some 199, some 194⟩, .schedule ⟨some 199, some 194⟩, .give (.binary 0),
    .schedule ⟨some 199, some 199⟩, .lock 1 ⟨some 199, some 194⟩, .schedule ⟨some 199, some 194⟩]

/-- A run without operations of mutexes leaves them alone. -/
lemma foldlM_mutex {evs : List (Event α)} (hev : ∀ ev ∈ evs, ev.mutex = none)
    (h : evs.foldlM next k = some k') : k'.mutex = k.mutex := by
  induction evs generalizing k with
  | nil =>
      obtain rfl : k = k' := by simpa using h
      rfl
  | cons ev evs ih =>
      obtain ⟨k₁, hk₁, hrest⟩ : ∃ k₁, k.next ev = some k₁ ∧ evs.foldlM next k₁ = some k' := by
        simpa [List.foldlM_cons, Option.bind_eq_some_iff] using h
      obtain ⟨-, reply, hrun⟩ := next_eq_some.mp hk₁
      rw [ih (fun e he => hev e (List.mem_cons_of_mem _ he)) hrest]
      exact exec_mutex hrun (hev ev List.mem_cons_self)

/-- Such a run from boot is where a run with boosts can start. -/
lemma boosts_initial {k : Kernel ℕ} {evs : List (Event ℕ)} (hev : ∀ ev ∈ evs, ev.mutex = none)
    (h : trial next evs = some k) : (boosts ℕ).Initial k := by
  refine ⟨trial_reachable h, fun i => ?_⟩
  simp only [trial, Option.bind_eq_bind, Option.bind_eq_some_iff] at h
  obtain ⟨k₀, hboot, hrun⟩ := h
  rw [foldlM_mutex hev hrun]
  exact (booted_initial hboot).unboosted i

/-- The outer mutex is dropped first: its saved deadline is restored before that of the inner
one. -/
def crossed : List (Event ℕ) :=
  contend ++ [.unlock 0, .schedule ⟨some 299, some 299⟩, .unlock 0,
    .take (.binary 1) ⟨some 299, some 294⟩, .schedule ⟨some 299, some 294⟩, .unlock 1]

theorem boost_outlives_mutexes : ∃ r, (boosts ℕ).trialFrom setup crossed = some r ∧
    (boosts ℕ).Run r.1 r.2 ∧ r.2.kernel.Unboosted ∧ r.2.record.before .cfs = some 500 ∧
    (r.2.kernel.sched.ktimers.entity .cfs).expireAt = 315 ∧ ¬ Restored r.2 := by
  have htest : ((boosts ℕ).trialFrom setup crossed).any (fun r => r.2.record.order == [] &&
      r.2.record.before .cfs == some 500 &&
      (r.2.kernel.sched.ktimers.entity .cfs).expireAt == 315) = true := by decide +kernel
  obtain ⟨r, hr, htest⟩ := (Option.any_eq_true ..).mp htest
  simp only [Bool.and_eq_true, beq_iff_eq] at htest
  obtain ⟨⟨horder, hbefore⟩, hexp⟩ := htest
  have hrun := Recorder.trialFrom_run (fun _ => boosts_initial (by decide)) hr
  have hno : r.2.kernel.Unboosted := fun i => by
    have hmem := (reachable_boostInv hrun.reach).order i
    rw [horder] at hmem
    simpa using hmem
  refine ⟨r, hr, hrun, hno, hbefore, hexp, fun hrestored => ?_⟩
  have heq := hrestored hno .cfs 500 hbefore
  rw [hexp] at heq
  cases heq

/-- The inner mutex is dropped first. -/
def nested : List (Event ℕ) :=
  contend ++ [.unlock 1, .schedule ⟨some 299, some 299⟩, .unlock 1,
    .take (.binary 0) ⟨some 299, some 294⟩, .schedule ⟨some 299, some 294⟩, .unlock 0]

theorem boosts_restored_nested : ∃ r, (boosts ℕ).trialFrom setup nested = some r ∧
    r.2.record.before .cfs = some 500 ∧ (r.2.kernel.sched.ktimers.entity .cfs).expireAt = 500 ∧
    Restored r.2 ∧ ∀ p ∈ r.1, Restored p.2.2 := by
  have htest : ((boosts ℕ).trialFrom setup nested).any (fun r =>
      r.2.record.before .cfs == some 500 &&
      (r.2.kernel.sched.ktimers.entity .cfs).expireAt == 500 &&
      decide (∀ p ∈ r.1, InOrder p.1 p.2.1 p.2.2)) = true := by decide +kernel
  obtain ⟨r, hr, htest⟩ := (Option.any_eq_true ..).mp htest
  simp only [Bool.and_eq_true, beq_iff_eq, decide_eq_true_eq] at htest
  obtain ⟨⟨hbefore, hexp⟩, hall⟩ := htest
  exact ⟨r, hr, hbefore, hexp,
    boosts_restored (Recorder.trialFrom_run (fun _ => boosts_initial (by decide)) hr) hall⟩

end Kernel

end Rtsched

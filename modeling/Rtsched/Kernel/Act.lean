import Rtsched.Kernel.ScheduleSpec
import Rtsched.Kernel.SpawnSpec

/-!
The actions of the scheduler: what one operation can do to it.

* `Label` and `Sched.Act`: the actions.  An action says which thread moves, how the time advances
  and what becomes of the timers; it does not mention the pointer structures.
* `Sched.Act.inv`: **every action keeps the invariant**; `Sched.Act.nowTicks`: how it advances the
  time.
* `Sched.Path`: a sequence of actions; the steps of the kernel are such sequences.
-/

namespace Rtsched

open Outcome

/-- The actions of the scheduler. -/
inductive Label
  /-- The current thread gives up the processor after `elapsed` ticks. -/
  | yields (t : Tid) (elapsed : ℕ)
  /-- The current thread goes to sleep. -/
  | sleeps (t : Tid) (elapsed : ℕ)
  /-- The current thread is suspended on an object. -/
  | blocks (t : Tid) (o : WaitObject) (elapsed : ℕ)
  /-- The runtime counter of the current RT thread is assigned. -/
  | times (t : Tid) (startTime : ℕ)
  /-- A waiter of an object is made ready. -/
  | wakes (t : Tid) (o : WaitObject)
  /-- The deadline of a thread is boosted or restored. -/
  | sets (t : Tid)
  /-- The time advances and expired timers are dispatched. -/
  | ticks (elapsed : ℕ)
  /-- A context switch. -/
  | switches
  /-- A thread is created. -/
  | spawns (t : Tid) (kind : ThreadKind)
  /-- The idle thread is created and run. -/
  | starts (t : Tid)
  deriving DecidableEq, Repr

/-- The time an action accounts for. -/
def Label.elapsed : Label → ℕ
  | yields _ elapsed | sleeps _ elapsed | blocks _ _ elapsed | ticks elapsed => elapsed
  | _ => 0

namespace Sched

/-- The current thread is about to make a step. -/
structure Acting (t : Tid) (s : Sched) : Prop where
  current : s.current = some t
  kind : s.kind t ≠ .idle
  awake : (s.state t).isBlocked = false

/-- Yielding the timer of the current thread. -/
structure Yields (t : Tid) (elapsed : ℕ) (s s' : Sched) : Prop where
  moves : Moves t (s.place t) s s'
  frame : KTimers.Frame (fun k => s.threadSchedulerKtimer t = some k) s.ktimers s'.ktimers
  cfs : s.kind t = .cfs → s.Parks elapsed s'
  nowTicks : s'.ktimers.nowTicks = satAdd64 s.ktimers.nowTicks elapsed
  next : s'.ktimers.next = s'.ktimers.active.head?
  queues : SameQueues s s'
  rt : s.kind t = .rt → .rt t ∈ s'.ktimers.inactive ∧
    (s'.ktimers.entity (.rt t)).expireAt = s.ktimers.yieldedExpireAt t elapsed ∧
    s'.ktimers.runtime t = 0

/-- The effect of an action. -/
inductive Act : Label → Sched → Sched → Prop
  | yields {s s' : Sched} {t : Tid} {elapsed : ℕ} (ha : s.Acting t) (h : Yields t elapsed s s') :
      Act (.yields t elapsed) s s'.requestContextSwitch
  | sleeps {s s' : Sched} {t : Tid} {elapsed : ℕ} {x : ThreadState} (ha : s.Acting t)
      (hx : x.isBlocked = true)
      (hlong : x = .suspended → u64Max ≤ satAdd64 s.ktimers.nowTicks elapsed + u32Max)
      (h : Blocks t (.free (s.kind t) x none) elapsed s s') :
      Act (.sleeps t elapsed) s s'.requestContextSwitch
  | blocks {s s' : Sched} {t : Tid} {elapsed : ℕ} {o : WaitObject} (ha : s.Acting t)
      (h : Blocks t (.settled (s.kind t) .suspended (some o.syncType) (· = o)) elapsed s s')
      (hkey : s'.deadlineAt t = s.threadSchedulerExpireAt t) :
      Act (.blocks t o elapsed) s s'.requestContextSwitch
  | times {s : Sched} {t : Tid} {startTime : ℕ} (hc : s.current = some t) (hkind : s.kind t = .rt)
      (hle : startTime ≤ u32Max) :
      Act (.times t startTime) s { s with ktimers := s.ktimers.setRuntime t startTime }
  | wakes {s s' : Sched} {t : Tid} {o : WaitObject} (ht : t ∈ s.waiters o)
      (h : Readies t (some o.syncType) s s') (hfirst : (s.waiters o).head? = some t) :
      Act (.wakes t o) s s'.requestContextSwitch
  | sets {s s' : Sched} {t : Tid} (h : Moves t (s.place t) s s')
      (hnow : s'.ktimers.nowTicks = s.ktimers.nowTicks)
      (hnext : s'.ktimers.next = s'.ktimers.active.head?) {expireAt : ℕ}
      (hsets : Sets t expireAt s s') : Act (.sets t) s s'
  | ticks {s s' : Sched} {elapsed : ℕ} (h : Woken elapsed (s.advanced elapsed) s')
      (hcfs : s'.ktimers.Linked .cfs) (hwait : s'.ktimers.Linked .wait)
      (hnext : s'.ktimers.next = s'.ktimers.active.head?)
      (harmed : s.WaitArmed → s'.WaitArmed) (hcalm : s'.ktimers.Calm) :
      Act (.ticks elapsed) s s'.requestContextSwitch
  | switches {s s' : Sched} {elapsed : ℕ} (h : Switches elapsed s s') : Act .switches s s'
  | spawns {s s' : Sched} {t : Tid} {kind : ThreadKind} (ht : t ∉ s.spawned)
      (h : Spawns kind t s s')
      (hk : s'.ktimers = s.ktimers ∨ ∃ timing, kind = .rt ∧
        KTimers.Settles (· = .rt t) (s.initRtThread t timing).ktimers s'.ktimers ∧
        .rt t ∈ s'.ktimers.active)
      (hrunq : kind ≠ .cfs → s'.runq = s.runq)
      (hcfs : kind = .cfs → ∃ priority ≠ 0,
        (s.runq.setEntity t ⟨0, 0, priority⟩).enqueueThread t = .ok s'.runq) :
      Act (.spawns t kind) s s'
  | starts {s s' : Sched} {t : Tid} (ht : t ∉ s.spawned) (h : s'.Inv) (hk : s'.ktimers = s.ktimers)
      (hc : s.current = none) (hc' : s'.current = some t) (hp : s'.pendsv = s.pendsv)
      (hs : s'.spawned = t :: s.spawned)
      (hplace : s'.place = Function.update s.place t (.free .idle .running none))
      (hkeys : SameKeys t s s') (htree : s'.waitq.tree = s.waitq.tree)
      (hrunq : s'.runq = s.runq) :
      Act (.starts t) s s'

namespace Act

variable {s s' : Sched}

/-- **Every action keeps the invariant.** -/
theorem inv {l : Label} (h : s.Inv) (ha : Act l s s') : s'.Inv := by
  cases ha with
  | yields ha hy =>
      exact (Keeps.base h.toBase (hy.moves.keeps_self h.toBase hy.next)).request
  | sleeps ha hx hlong hb =>
      refine (Keeps.base h.toBase (hb.keeps h.toBase ?_ rfl ha.kind ?_)).request
      · exact Place.ok_free (fun hidle => absurd hidle ha.kind) fun _ => rfl
      · rintro rfl
        exact absurd hx (by decide)
  | blocks ha hb =>
      exact (Keeps.base h.toBase (hb.keeps h.toBase (Place.ok_suspended ha.kind _) rfl ha.kind
        (by simp [Place.settled]))).request
  | times _ _ _ =>
      exact ⟨Keeps.base h.toBase ((moves_setRuntime h.tidy _ _).keeps_self h.toBase h.next),
        h.awake⟩
  | @wakes _ _ t o ht hr _ =>
      have hkind : s.kind t ≠ .idle :=
        (h.ok t).kind_ne_idle (by rw [((h.ok t).waits o ht).1]; rfl)
      exact (Keeps.base h.toBase (hr.keeps h.toBase hkind)).request
  | @sets _ _ t hm hnow hnext _ _ =>
      have hkeeps := hm.keeps_self h.toBase hnext
      refine ⟨Keeps.base h.toBase hkeeps, fun hpend u hu => ?_⟩
      have hstate : s'.state u = s.state u := by
        by_cases hut : u = t
        · rw [hut]
          exact hm.state_self
        · exact congrArg Place.state (hm.other hut)
      rw [hstate]
      exact h.awake (hm.control.pendsv.symm.trans hpend) u (hm.control.current.symm.trans hu)
  | ticks hw hcfs hwait hnext =>
      exact (Keeps.base (advanced_base h.toBase _)
        (hw.keeps (advanced_base h.toBase _) hcfs hwait hnext)).request
  | switches hs => exact hs.inv
  | spawns ht hs _ => exact hs.inv h ht
  | starts _ h' => exact h'

/-- **How an action advances the time.** -/
theorem nowTicks {l : Label} (h : s.Inv) (ha : Act l s s') :
    s'.ktimers.nowTicks = satAdd64 s.ktimers.nowTicks l.elapsed := by
  have hstay : satAdd64 s.ktimers.nowTicks 0 = s.ktimers.nowTicks :=
    min_eq_left h.tidy.ktimers.now_le
  cases ha with
  | yields _ hy => exact hy.nowTicks
  | sleeps _ _ _ hb => exact hb.nowTicks
  | blocks _ hb => exact hb.nowTicks
  | times _ _ _ => exact hstay.symm
  | wakes _ hr => exact hr.nowTicks.trans hstay.symm
  | sets _ hnow _ => exact hnow.trans hstay.symm
  | ticks hw _ _ _ => exact hw.nowTicks
  | switches hs =>
      rw [hs.ktimers]
      exact hstay.symm
  | spawns _ _ hk =>
      rcases hk with heq | ⟨_, -, hset, -⟩
      · rw [heq]
        exact hstay.symm
      · exact hset.nowTicks.trans hstay.symm
  | starts _ _ hk =>
      rw [hk]
      exact hstay.symm

/-- Whether a switch is pending after an action. -/
theorem pendsv {l : Label} (ha : Act l s s') :
    s'.pendsv = match l with
      | .times _ _ | .sets _ | .spawns _ _ | .starts _ => s.pendsv
      | .switches => false
      | _ => true := by
  cases ha with
  | yields _ _ => rfl
  | sleeps _ _ _ _ => rfl
  | blocks _ _ => rfl
  | times _ _ _ => rfl
  | wakes _ _ => rfl
  | sets hm _ _ => exact hm.control.pendsv
  | ticks _ _ _ _ => rfl
  | switches hs => exact hs.pendsv
  | spawns _ hs _ => exact hs.pendsv
  | starts _ _ _ _ _ hp _ _ => exact hp

lemma now_le {l : Label} (h : s.Inv) (ha : Act l s s') :
    s.ktimers.nowTicks ≤ s'.ktimers.nowTicks := by
  rw [ha.nowTicks h]
  exact le_min (Nat.le_add_right _ _) h.tidy.ktimers.now_le

/-- The scheduler stays started. -/
lemma started {l : Label} (ha : Act l s s') (hst : s.started = true) : s'.started = true := by
  cases ha with
  | yields _ hy => exact hy.moves.control.started.trans hst
  | sleeps _ _ _ hb => exact hb.moves.control.started.trans hst
  | blocks _ hb => exact hb.moves.control.started.trans hst
  | times _ _ _ => exact hst
  | wakes _ hr => exact hr.moves.control.started.trans hst
  | sets hm _ _ => exact hm.control.started.trans hst
  | ticks hw _ _ _ => exact hw.control.started.trans hst
  | switches hs =>
      obtain ⟨n, hn, -⟩ := hs.current
      rw [hs.inv.started, hn]
      rfl
  | spawns _ hs _ => exact hs.started.trans hst
  | starts _ h' _ _ hc' _ _ _ =>
      rw [h'.started, hc']
      rfl

/-- Setting a deadline moves no thread. -/
lemma sets_place {t : Tid} (ha : Act (.sets t) s s') : s'.place = s.place := by
  cases ha with
  | sets hm _ _ => exact hm.place.trans (Function.update_eq_self ..)

end Act

/-- A sequence of actions. -/
inductive Path : List Label → Sched → Sched → Prop
  | nil {s : Sched} : Path [] s s
  | cons {s s' s'' : Sched} {l : Label} {ls : List Label} (h : Act l s s') (hp : Path ls s' s'') :
      Path (l :: ls) s s''

namespace Path

variable {s s' : Sched} {ls : List Label}

lemma single {l : Label} (h : Act l s s') : Path [l] s s' := .cons h .nil

lemma eq_of_nil (h : Path [] s s') : s' = s := by
  cases h with
  | nil => rfl

lemma act {l : Label} (h : Path [l] s s') : Act l s s' := by
  cases h with
  | cons ha hp =>
      rw [hp.eq_of_nil]
      exact ha

lemma act_act {l l' : Label} (h : Path [l, l'] s s') : ∃ s₁, Act l s s₁ ∧ Act l' s₁ s' := by
  cases h with
  | cons ha hp => exact ⟨_, ha, hp.act⟩

lemma append {s'' : Sched} {ls' : List Label} (h : Path ls s s') (h' : Path ls' s' s'') :
    Path (ls ++ ls') s s'' := by
  induction h with
  | nil => exact h'
  | cons ha _ ih => exact .cons ha (ih h')

theorem inv (h : s.Inv) (hp : Path ls s s') : s'.Inv := by
  induction hp with
  | nil => exact h
  | cons ha _ ih => exact ih (ha.inv h)

lemma started (hp : Path ls s s') (hst : s.started = true) : s'.started = true := by
  induction hp with
  | nil => exact hst
  | cons ha _ ih => exact ih (ha.started hst)

end Path

/-! ### The operations as actions -/

section Operations

variable {s s' : Sched} {t : Tid}

/-- The current thread of a state in which no switch is pending. -/
lemma Inv.acting (h : s.Inv) (hpend : s.pendsv = false) (hc : s.current = some t)
    (hkind : s.kind t ≠ .idle) : s.Acting t := ⟨hc, hkind, h.awake hpend t hc⟩

/-- `yieldyi` is a yield, or nothing for the idle thread. -/
theorem yieldyi_act (h : s.Inv) (hpend : s.pendsv = false) (hc : s.current = some t)
    (port : TimerPort) :
    ∃ s', s.yieldyi port = .ok s' ∧
      (s' = s ∨ Act (.yields t port.elapsedTicksSinceCurrentReload) s s') := by
  by_cases hkind : s.kind t = .idle
  · exact ⟨s, yieldyi_idle hkind hc port, Or.inl rfl⟩
  · have ha := h.acting hpend hc hkind
    obtain ⟨s₁, hrun, hm, hframe, hpark, hnow, hnext, hqueues, hrt⟩ :=
      yieldyi_spec h.tidy h.cfs (h.ok t) hkind ha.awake hc port
    exact ⟨_, hrun, Or.inr (.yields ha ⟨hm, hframe, hpark, hnow, hnext, hqueues, hrt⟩)⟩

/-- A sleep without end takes the time to its maximum. -/
lemma waitState_suspended {now : ℕ} {ticksPerMs msec : ℕ}
    (h : waitState (satAdd64 now (satMul32 msec ticksPerMs)) = .suspended) :
    u64Max ≤ now + u32Max := by
  have hmax : satAdd64 now (satMul32 msec ticksPerMs) = u64Max := by
    by_contra hne
    rw [waitState, if_neg hne] at h
    exact absurd h (by decide)
  have hle : satMul32 msec ticksPerMs ≤ u32Max := min_le_right _ _
  rw [satAdd64] at hmax
  omega

/-- `msleepyi` is a sleep, or nothing for the idle thread. -/
theorem msleepyi_act (h : s.Inv) (hpend : s.pendsv = false) (hc : s.current = some t)
    (port : TimerPort) (ticksPerMs msec : ℕ) :
    Ends Fault.Benign (s.msleepyi port ticksPerMs msec) fun s' =>
      s' = s ∨ Act (.sleeps t port.elapsedTicksSinceCurrentReload) s s' := by
  by_cases hkind : s.kind t = .idle
  · rw [msleepyi_idle hkind hc]
    exact Or.inl rfl
  · have ha := h.acting hpend hc hkind
    refine (msleepyi_spec h.tidy h.cfs h.wait (h.ok t) hkind ha.awake hc (h.isCfs t hc) port
      ticksPerMs msec).imp ?_
    rintro _ ⟨s₁, rfl, hb, -⟩
    refine Or.inr (.sleeps ha ?_ waitState_suspended hb)
    unfold waitState
    split <;> rfl

/-- `set_rt_thread_start_time` writes a counter, or nothing unless an RT thread is current. -/
theorem setRtThreadStartTime_act {startTime : ℕ} (hle : startTime ≤ u32Max) :
    s.setRtThreadStartTime startTime = (s, false) ∨
      ∃ s' t, s.setRtThreadStartTime startTime = (s', true) ∧ Act (.times t startTime) s s' := by
  cases hc : s.current with
  | none => exact Or.inl (by simp only [setRtThreadStartTime, hc])
  | some t =>
      by_cases hkind : s.kind t = .rt
      · refine Or.inr ⟨_, t, ?_, .times hc hkind hle⟩
        simp only [setRtThreadStartTime, hc, if_pos hkind]
      · exact Or.inl (by simp only [setRtThreadStartTime, hc, if_neg hkind])

/-- Blocking on an object suspends the current thread, unless it is the idle thread. -/
theorem blockCurrentThreadOn_act (h : s.Inv) (hpend : s.pendsv = false)
    (hc : s.current = some t) (o : WaitObject) (port : TimerPort) :
    Ends Fault.Benign (s.blockCurrentThreadOn o t port) fun r =>
      (r = none ∧ s.kind t = .idle) ∨ ∃ s', r = some (s', s.threadSchedulerExpireAt t) ∧
        Act (.blocks t o port.elapsedTicksSinceCurrentReload) s s' := by
  by_cases hkind : s.kind t = .idle
  · rw [blockCurrentThreadOn_idle hkind hc]
    exact Or.inl ⟨rfl, hkind⟩
  · have ha := h.acting hpend hc hkind
    refine (blockCurrentThreadOn_spec h.tidy h.cfs h.wait (h.ok t) hkind ha.awake hc o port).imp ?_
    rintro _ ⟨s₁, rfl, hkey, hb⟩
    exact Or.inr ⟨_, rfl, .blocks ha hb hkey⟩

/-- Waking the first waiter of an object. -/
theorem wakeFirst_act (h : s.Inv) (o : WaitObject) :
    Ends Fault.Benign (s.wakeFirst o) fun r =>
      (s.waiters o = [] ∧ r = (s, none)) ∨
        ∃ t, r.2 = some t ∧ (s.waiters o).head? = some t ∧ Act (.wakes t o) s r.1 := by
  refine (wakeFirst_spec h.tidy h.wait h.ok o).imp ?_
  rintro r (⟨hnil, rfl⟩ | ⟨t, l, s₁, ho, rfl, hr⟩)
  · exact Or.inl ⟨hnil, rfl⟩
  · have ht : t ∈ s.waiters o := by
      rw [ho]
      exact List.mem_cons_self ..
    have hfirst : (s.waiters o).head? = some t := by rw [ho, List.head?_cons]
    exact Or.inr ⟨t, rfl, hfirst, .wakes ht hr hfirst⟩

/-- Boosting or restoring a deadline. -/
theorem setThreadSchedulerExpireAt_act (h : s.Inv) (t : Tid) (expireAt : ℕ) :
    Ends Fault.Benign (s.setThreadSchedulerExpireAt t expireAt) (Act (.sets t) s) :=
  (setThreadSchedulerExpireAt_spec h.toBase t expireAt).imp fun _ ⟨hm, hnow, hnext, hsets⟩ =>
    .sets hm hnow hnext hsets

/-- A scheduler tick; before the start it does nothing. -/
theorem handleSchedTick_act (h : s.Inv) (port : TimerPort) (fuel : ℕ) :
    Ends Fault.Benign (s.handleSchedTick port fuel) fun s' =>
      (s.started = false ∧ s' = s) ∨
        (s.started = true ∧ Act (.ticks (s.ktimers.elapsedTicksSinceLastInterrupt port)) s s') := by
  by_cases hst : s.started = true
  · refine (handleSchedTick_spec h.tidy h.ok h.cfs h.wait hst port fuel).imp ?_
    rintro _ ⟨s₁, rfl, hw, hcfs, hwait, hnext, harmed, hcalm⟩
    exact Or.inr ⟨hst, .ticks hw hcfs hwait hnext harmed hcalm⟩
  · rw [handleSchedTick, if_neg hst]
    exact Or.inl ⟨by simpa using hst, rfl⟩

end Operations

end Sched

end Rtsched

import Rtsched.Kernel.Message
import Rtsched.Lib.Runs

/-!
The kernel as a transition system.  One step is one critical section or one handler body.

A thread runs between two context switches: `ThreadMode` says that the current thread is about to
make a step, that is, that no switch is pending and that the thread is not inside a blocking queue
call, which only `retry` continues.  Operations that never park their caller may also come from
an interrupt handler, at any time; so may the scheduler tick, and `schedule` runs whenever a
switch is pending.
-/

namespace Rtsched

/-- A layout with the timers of the system first. -/
def Layout.packed : Layout where
  addr
    | .cfs => 0
    | .wait => 1
    | .rt t => t + 2
  injective a b h := by
    cases a <;> cases b <;> simp_all

/-- The steps of the kernel. -/
inductive Event (α : Type)
  | yieldyi (port : TimerPort)
  | msleepyi (port : TimerPort) (ticksPerMs msec : ℕ)
  | setRtThreadStartTime (startTime : ℕ)
  | tryTake (i : SemaphoreId)
  | take (i : SemaphoreId) (port : TimerPort)
  | give (i : SemaphoreId)
  | tryLock (i : ℕ)
  | lock (i : ℕ) (port : TimerPort)
  | unlock (i : ℕ)
  | trySend (i : ℕ) (x : α)
  | tryReceive (i : ℕ)
  | send (i : ℕ) (x : α) (canBlock : Bool) (port : TimerPort)
  | receive (i : ℕ) (canBlock : Bool) (port : TimerPort)
  | retry (port : TimerPort)
  | tick (port : TimerPort) (fuel : ℕ)
  | schedule (port : TimerPort)
  | spawnCfs (t : Tid) (priority : ℕ)
  | spawnRt (t : Tid) (timing : RtTiming)
  | start (t : Tid)

/-- The step is a context switch. -/
def Event.isSchedule {α : Type} : Event α → Bool
  | .schedule _ => true
  | _ => false

lemma Event.isSchedule_iff {α : Type} {ev : Event α} :
    ev.isSchedule = true ↔ ∃ port, ev = .schedule port := by
  cases ev <;> simp [isSchedule]

/-- The step sets no runtime counter to anything but zero. -/
def Event.SetsZero {α : Type} : Event α → Prop
  | .setRtThreadStartTime startTime => startTime = 0
  | _ => True

instance {α : Type} : DecidablePred (Event.SetsZero (α := α))
  | .setRtThreadStartTime startTime => inferInstanceAs (Decidable (startTime = 0))
  | .yieldyi _ | .msleepyi _ _ _ | .tryTake _ | .take _ _ | .give _ | .tryLock _ | .lock _ _
  | .unlock _ | .trySend _ _ | .tryReceive _ | .send _ _ _ _ | .receive _ _ _ | .retry _
  | .tick _ _ | .schedule _ | .spawnCfs _ _ | .spawnRt _ _ | .start _ => instDecidableTrue

namespace Kernel

variable {α : Type}

/-- A step that returns nothing. -/
def lift (k : Kernel α) (x : Except Fault Sched) : Except Fault (Kernel α × Reply α) := do
  let s ← x
  .ok ({ k with sched := s }, .done)

/-- The effect of a step. -/
def exec (k : Kernel α) : Event α → Except Fault (Kernel α × Reply α)
  | .yieldyi port => k.lift (k.sched.yieldyi port)
  | .msleepyi port ticksPerMs msec => k.lift (k.sched.msleepyi port ticksPerMs msec)
  | .setRtThreadStartTime startTime =>
      let r := k.sched.setRtThreadStartTime startTime
      .ok ({ k with sched := r.1 }, .flag r.2)
  | .tryTake i => .ok (k.tryTake i)
  | .take i port => k.take i port
  | .give i => k.give i
  | .tryLock i => .ok (k.tryLock i)
  | .lock i port => k.lock i port
  | .unlock i => k.unlock i
  | .trySend i x => k.trySend i x
  | .tryReceive i => k.tryReceive i
  | .send i x canBlock port => k.send i x canBlock port
  | .receive i canBlock port => k.receive i canBlock port
  | .retry port => k.retry port
  | .tick port fuel => k.lift (k.sched.handleSchedTick port fuel)
  | .schedule port => k.lift (k.sched.schedule port)
  | .spawnCfs t priority => k.lift (k.sched.spawnCfs t priority)
  | .spawnRt t timing => k.lift (k.sched.spawnRt t timing)
  | .start t => k.lift (k.sched.spawnMainThread t)

/-- The current thread, if one has been selected, is about to make a step. -/
def ThreadMode (k : Kernel α) : Prop :=
  k.sched.pendsv = false ∧ ∀ t, k.sched.current = some t → (k.call t).isNone

/-- Which steps can come next. -/
def Enabled (k : Kernel α) : Event α → Prop
  | .yieldyi _ | .msleepyi _ _ _ => k.ThreadMode ∧ k.sched.current.isSome
  | .setRtThreadStartTime startTime => startTime ≤ u32Max
  | .take _ _ | .tryLock _ | .lock _ _ => k.ThreadMode
  | .unlock i => k.ThreadMode ∧ (k.mutex i).owner.isSome ∧ (k.mutex i).owner = k.sched.current
  | .tryTake _ | .give _ | .trySend _ _ | .tryReceive _ | .tick _ _ => True
  | .send _ _ canBlock _ | .receive _ canBlock _ => canBlock = true → k.ThreadMode
  | .retry _ => k.sched.pendsv = false ∧ ∃ t, k.sched.current = some t ∧ (k.call t).isSome
  | .schedule _ => k.sched.pendsv = true ∧ k.sched.current.isSome
  | .spawnCfs t priority => k.ThreadMode ∧ t ∉ k.sched.spawned ∧ priority ≠ 0
  | .spawnRt t _ => k.ThreadMode ∧ t ∉ k.sched.spawned
  | .start t => k.ThreadMode ∧ t ∉ k.sched.spawned ∧ k.sched.started = false

instance (k : Kernel α) : Decidable k.ThreadMode :=
  inferInstanceAs (Decidable (_ ∧ ∀ t ∈ k.sched.current, (k.call t).isNone))

instance (k : Kernel α) : DecidablePred k.Enabled
  | .yieldyi _ | .msleepyi _ _ _ => inferInstanceAs (Decidable (k.ThreadMode ∧ _ = true))
  | .setRtThreadStartTime startTime => inferInstanceAs (Decidable (startTime ≤ u32Max))
  | .take _ _ | .tryLock _ | .lock _ _ => inferInstanceAs (Decidable k.ThreadMode)
  | .unlock _ => inferInstanceAs (Decidable (k.ThreadMode ∧ _ = true ∧ _))
  | .tryTake _ | .give _ | .trySend _ _ | .tryReceive _ | .tick _ _ => instDecidableTrue
  | .send _ _ _ _ | .receive _ _ _ => inferInstanceAs (Decidable (_ = true → k.ThreadMode))
  | .retry _ => inferInstanceAs (Decidable (_ = false ∧ ∃ t ∈ k.sched.current, (k.call t).isSome))
  | .schedule _ => inferInstanceAs (Decidable (_ = true ∧ _ = true))
  | .spawnCfs t _ => inferInstanceAs (Decidable (k.ThreadMode ∧ t ∉ k.sched.spawned ∧ _ ≠ 0))
  | .spawnRt t _ => inferInstanceAs (Decidable (k.ThreadMode ∧ t ∉ k.sched.spawned))
  | .start t => inferInstanceAs (Decidable (k.ThreadMode ∧ t ∉ k.sched.spawned ∧ _ = false))

/-- One step of the kernel. -/
def Step (k k' : Kernel α) : Prop := ∃ ev reply, k.Enabled ev ∧ k.exec ev = .ok (k', reply)

/-- The kernel after `init_ktimer_queue` and `init_cfs`: no mutex is owned, every message queue is
empty, and no semaphore is over its limit. -/
structure Initial (k : Kernel α) : Prop where
  boot : ∃ layout periodTicks execTicks, Sched.boot layout periodTicks execTicks = .ok k.sched
  word_le : ∀ i, k.word i ≤ k.limit i
  mutex_eq : ∀ i, k.mutex i = .new
  queue_eq : ∀ i, ∃ cap, k.queue i = .new cap
  call_eq : ∀ t, k.call t = none

/-- The states of the runs of the kernel. -/
abbrev Reachable (k : Kernel α) : Prop := Runs.Reach Initial Step k

/-! ### Executable runs -/

/-- The state after a step; none if the step cannot come next or fails. -/
def next (k : Kernel α) (ev : Event α) : Option (Kernel α) :=
  if k.Enabled ev then (k.exec ev).toOption.map Prod.fst else none

/-- The fault of a step. -/
def fault (k : Kernel α) (ev : Event α) : Option Fault :=
  match k.exec ev with
  | .ok _ => none
  | .error f => some f

/-- The kernel after boot, with every semaphore empty. -/
def booted (layout : Layout) (periodTicks execTicks : ℕ) (maxCount : ℕ → ℕ) (cap : ℕ → Capacity) :
    Option (Kernel α) := do
  let s ← (Sched.boot layout periodTicks execTicks).toOption
  some ⟨s, fun _ => 0, maxCount, fun _ => .new, fun i => .new (cap i), fun _ => none⟩

lemma next_eq_some {k k' : Kernel α} {ev : Event α} :
    k.next ev = some k' ↔ k.Enabled ev ∧ ∃ reply, k.exec ev = .ok (k', reply) := by
  unfold next
  split
  · rename_i hen
    cases k.exec ev with
    | error f => simp [Except.toOption]
    | ok r => simp [Except.toOption, hen, Prod.ext_iff, eq_comm]
  · rename_i hen
    simp [hen]

lemma fault_eq_some {k : Kernel α} {ev : Event α} {f : Fault} :
    k.fault ev = some f ↔ k.exec ev = .error f := by
  unfold fault
  cases k.exec ev <;> simp

lemma exists_of_fault_isNone {k : Kernel α} {port : TimerPort}
    (h : (k.fault (.schedule port)).isNone = true) :
    ∃ k', k.exec (.schedule port) = .ok (k', .done) := by
  unfold fault at h
  cases hs : k.sched.schedule port with
  | error f => simp [exec, lift, hs] at h
  | ok s => exact ⟨{ k with sched := s }, by simp [exec, lift, hs]⟩

lemma next_step {k k' : Kernel α} {ev : Event α} (h : k.next ev = some k') : Step k k' := by
  obtain ⟨hen, reply, hrun⟩ := next_eq_some.mp h
  exact ⟨ev, reply, hen, hrun⟩

lemma booted_initial {layout : Layout} {periodTicks execTicks : ℕ} {maxCount : ℕ → ℕ}
    {cap : ℕ → Capacity} {k : Kernel α}
    (h : booted layout periodTicks execTicks maxCount cap = some k) : k.Initial := by
  unfold booted at h
  cases hboot : Sched.boot layout periodTicks execTicks with
  | error f =>
      rw [hboot] at h
      cases h
  | ok s =>
      rw [hboot] at h
      obtain rfl := Option.some.inj h
      exact ⟨⟨layout, periodTicks, execTicks, hboot⟩, fun _ => Nat.zero_le _, fun _ => rfl,
        fun i => ⟨cap i, rfl⟩, fun _ => rfl⟩

/-- The run of a step function on given steps from boot, with a CFS slice of 500 in 1000 ticks and
message queues of one slot. -/
def trial (next : Kernel α → Event α → Option (Kernel α)) (evs : List (Event α)) :
    Option (Kernel α) := do
  let k ← booted .packed 1000 500 (fun _ => 1) fun _ => ⟨1, 2 ^ 32 - 1, by decide, by decide⟩
  evs.foldlM next k

lemma trial_reach {next : Kernel α → Event α → Option (Kernel α)}
    {step : Kernel α → Kernel α → Prop}
    (hnext : ∀ k ev k', next k ev = some k' → step k k') {evs : List (Event α)} {k : Kernel α}
    (h : trial next evs = some k) : Runs.Reach Initial step k := by
  simp only [trial, Option.bind_eq_bind, Option.bind_eq_some_iff] at h
  obtain ⟨k₀, hboot, hrun⟩ := h
  exact Runs.Reach.foldlM hnext (.start (booted_initial hboot)) hrun

lemma trial_reachable {evs : List (Event α)} {k : Kernel α} (h : trial next evs = some k) :
    k.Reachable := trial_reach (fun _ _ _ => next_step) h

/-- A step after a run, and a test of the states before and after it. -/
lemma exists_of_trial (evs : List (Event α)) (ev : Event α) {P : Kernel α → Kernel α → Prop}
    [∀ k k', Decidable (P k k')]
    (h : (trial next evs).bind (fun k => (k.next ev).map fun k' => decide (P k k')) = some true) :
    ∃ k k' reply, k.Reachable ∧ k.Enabled ev ∧ k.exec ev = .ok (k', reply) ∧ P k k' := by
  obtain ⟨k, hk, h⟩ := Option.bind_eq_some_iff.mp h
  obtain ⟨k', hnext, hP⟩ := Option.map_eq_some_iff.mp h
  obtain ⟨hen, reply, hrun⟩ := next_eq_some.mp hnext
  exact ⟨k, k', reply, trial_reachable hk, hen, hrun, of_decide_eq_true hP⟩

end Kernel

end Rtsched

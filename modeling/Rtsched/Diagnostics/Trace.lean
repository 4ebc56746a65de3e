import Rtsched.Kernel.Step
import Rtsched.Lib.Logged

/-!
The tracing hooks of `src/diagnostics/trace.rs`, and the functions of the scheduler that call them.

A function of this module is the one of the model with its calls of the hooks; a thread is recorded
by its pointer and `is_cfs`, since its id and its name never change.  A deadline miss is recorded
just before the panic, so that no step that returns records one.

* `TraceState`: the registered callback and the counters.
* `Trace.exec`: the steps of the kernel with the events that they record; `Trace.exec_result`:
  **the hooks change nothing else.**
-/

namespace Rtsched

open Logged

/-- `TraceThread`. -/
structure TraceThread where
  thread : Tid
  isCfs : Bool
  deriving DecidableEq, Repr

/-- `TraceEvent`. -/
inductive TraceEvent
  | contextSwitch (fromThread : Option TraceThread) (toThread : TraceThread)
  | deadlineMiss (thread : TraceThread) (runtimeTicks relativeDeadlineTicks : ℕ)
  | wakeup (thread : TraceThread)
  | yield (thread : TraceThread) (elapsedTicks : ℕ)
  deriving DecidableEq, Repr

/-! ### The counters -/

/-- `TraceCounters`. -/
@[ext] structure TraceCounters where
  contextSwitches : ℕ
  deadlineMisses : ℕ
  wakeups : ℕ
  yields : ℕ
  deriving DecidableEq

/-- `increment`: a counter stays at its largest value. -/
def increment (counter : ℕ) : ℕ := if counter + 1 ≤ u32Max then counter + 1 else counter

/-- The increment of the hook that records the event. -/
def TraceCounters.count (c : TraceCounters) : TraceEvent → TraceCounters
  | .contextSwitch _ _ => { c with contextSwitches := increment c.contextSwitches }
  | .deadlineMiss _ _ _ => { c with deadlineMisses := increment c.deadlineMisses }
  | .wakeup _ => { c with wakeups := increment c.wakeups }
  | .yield _ _ => { c with yields := increment c.yields }

/-- The registered callback, one of `φ`, the counters, and the calls of callbacks so far. -/
structure TraceState (φ : Type) where
  traceFn : Option φ
  counters : TraceCounters
  calls : List (φ × TraceEvent)

namespace TraceState

variable {φ : Type} (s : TraceState φ)

/-- `set_trace_fn`. -/
def setTraceFn (traceFn : φ) : TraceState φ := { s with traceFn := some traceFn }

/-- `clear_trace_fn`. -/
def clearTraceFn : TraceState φ := { s with traceFn := none }

/-- `reset_trace_counters`. -/
def resetTraceCounters : TraceState φ := { s with counters := ⟨0, 0, 0, 0⟩ }

/-- `emit`. -/
def emit (e : TraceEvent) : TraceState φ :=
  match s.traceFn with
  | none => s
  | some traceFn => { s with calls := s.calls ++ [(traceFn, e)] }

/-- The end of every hook. -/
def record (e : TraceEvent) : TraceState φ := emit { s with counters := s.counters.count e } e

end TraceState

/-! ### The hooks -/

/-- A computation of the kernel that records events. -/
abbrev Traced (α : Type) := Logged Fault TraceEvent α

/-- `TraceThread::from_ptr`. -/
def TraceThread.fromPtr (s : Sched) (thread : Option Tid) : Option TraceThread :=
  thread.map fun t => ⟨t, s.kind t = .cfs⟩

namespace Trace

variable (s : Sched)

/-- `record_context_switch`. -/
def recordContextSwitch (fromThread toThread : Option Tid) : Traced Unit :=
  if fromThread = toThread then pure ()
  else
    match TraceThread.fromPtr s toThread with
    | none => pure ()
    | some next => record (.contextSwitch (TraceThread.fromPtr s fromThread) next)

/-- `record_wakeup`. -/
def recordWakeup (thread : Option Tid) : Traced Unit :=
  match TraceThread.fromPtr s thread with
  | none => pure ()
  | some t => record (.wakeup t)

/-- `record_yield`. -/
def recordYield (thread : Option Tid) (elapsedTicks : ℕ) : Traced Unit :=
  match TraceThread.fromPtr s thread with
  | none => pure ()
  | some t => record (.yield t elapsedTicks)

/-! ### `src/sched.rs` -/

/-- `switch_to_cfs_thread`. -/
def switchToCfsThread (next : Tid) : Traced Sched := do
  recordContextSwitch s s.current (some next)
  lift (s.switchToCfsThread next)

/-- `switch_to_idle_thread`. -/
def switchToIdleThread : Traced Sched :=
  match s.idle with
  | none => pure s
  | some i => do
      recordContextSwitch s s.current (some i)
      lift s.switchToIdleThread

/-- `switch_to_idle_thread_with_current_requeued`. -/
def switchToIdleThreadWithCurrentRequeued : Traced Sched := do
  let s ← lift s.requeueCurrentCfsThreadBeforeIdle
  switchToIdleThread s

/-- The branch of `schedule` for the active CFS timer, once `next` has been popped. -/
def runPopped (c next : Tid) : Traced Sched :=
  if s.currentIsCfs then
    if (s.state c).isBlocked || s.isIdleThread c then switchToCfsThread s next
    else if c = next then lift (.error .poppedCurrent)
    else if (s.runq.entity next).vruntime < (s.runq.entity c).vruntime then do
      recordContextSwitch s s.current (some next)
      lift (s.runPopped c next)
    else lift (s.runPopped c next)
  else do
    let s ← lift (s.readyUnlessBlocked c)
    switchToCfsThread s next

/-- The branch of `schedule` for the timer of an RT thread. -/
def switchToRtThread (c next : Tid) : Traced Sched := do
  let s ← lift (s.requeueCurrent c)
  recordContextSwitch s s.current (some next)
  let s ← lift (s.setState next .running)
  pure { s with current := some next, currentIsCfs := false }

/-- The choice of the next thread in `schedule`. -/
def pickNext (c : Tid) : Traced Sched :=
  match s.ktimers.next with
  | none => switchToIdleThreadWithCurrentRequeued s
  | some .cfs =>
      if (s.ktimers.entity .cfs).active then
        match s.runq.tree with
        | [] => switchToIdleThreadWithCurrentRequeued s
        | next :: l => runPopped { s with runq := { s.runq with tree := l } } c next
      else switchToIdleThreadWithCurrentRequeued s
  | some .wait => lift (.error .badPointer)
  | some (.rt next) => switchToRtThread s c next

/-- `schedule`. -/
def schedule (port : TimerPort) : Traced Sched :=
  match s.current with
  | none => lift (.error .badPointer)
  | some c => do
      let s ← lift (s.chargeCurrent c (s.ktimers.elapsedTicksSinceLastInterrupt port))
      let s ← pickNext s c
      pure { s with pendsv := false }

/-! ### `src/ktimer.rs` -/

/-- `wake_wait_thread`. -/
def wakeWaitThread (elapsed : ℕ) : ℕ → Sched → Traced Sched
  | 0, s => pure s
  | n + 1, s =>
      match s.waitq.tree with
      | [] => pure s
      | t :: l =>
          if (s.waitq.entity t).wakeAt ≤ s.ktimers.nowTicks then do
            let s ← lift (Sched.setState { s with waitq := { s.waitq with tree := l } } t .ready)
            recordWakeup s (some t)
            let s ← lift (s.wakeTimed t elapsed)
            wakeWaitThread elapsed n s
          else pure s

/-- What `dispatch_expired` does with one expired timer that it has removed. -/
def dispatchTimer (k : Timer) (elapsed : ℕ) : Traced Sched :=
  match k with
  | .wait => do
      let s ← wakeWaitThread elapsed s.waitq.tree.length s
      let q := s.ktimers.setEntity .wait
        ((s.ktimers.entity .wait).setExpireAt (KTimers.waitExpireAt s.firstWakeAt))
      let q ← lift (q.enqueueInactive .wait)
      pure { s with ktimers := q }
  | k => lift (s.dispatchTimer k elapsed)

/-- `dispatch_expired`. -/
def dispatchExpired (elapsed : ℕ) : ℕ → Sched → Traced Sched
  | 0, _ => lift (.error .hang)
  | n + 1, s =>
      match s.ktimers.first with
      | none => pure s
      | some k =>
          if s.ktimers.expired k then do
            let q ← lift (s.ktimers.remove k)
            let s ← dispatchTimer { s with ktimers := q } k elapsed
            dispatchExpired elapsed n s
          else pure s

/-- `handle_sched_tick`. -/
def handleSchedTick (port : TimerPort) (fuel : ℕ) : Traced Sched :=
  if s.started then do
    let elapsed := s.ktimers.elapsedTicksSinceLastInterrupt port
    let s ← dispatchExpired elapsed fuel { s with ktimers := s.ktimers.advanceTime elapsed }
    pure (Sched.requestContextSwitch
      { s with ktimers := s.ktimers.updateNextKtimer s.ktimers.firstActive })
  else pure s

/-- `enqueue_ktimerq_from_waitq`. -/
def enqueueKtimerqFromWaitq (t : Tid) : Traced Sched :=
  if s.kind t ≠ .rt then pure s
  else do
    let s ← lift (s.removeWaitThread t)
    let s ← lift (s.setState t .ready)
    recordWakeup s (some t)
    let q ← lift (s.ktimers.enqueueKtimer (.rt t))
    lift (Sched.programWaitKtimer { s with ktimers := q })

/-! ### `src/thread.rs` -/

/-- The body of `yieldyi` for the current thread. -/
def yieldThread (t : Tid) (port : TimerPort) : Traced Sched :=
  match s.threadSchedulerKtimer t with
  | none => pure s
  | some k => do
      let q ← lift (s.ktimers.yieldKtimer k port.elapsedTicksSinceCurrentReload true)
      let s := { s with ktimers := q.updateNextKtimer q.firstActive }
      recordYield s s.current port.elapsedTicksSinceCurrentReload
      pure s.requestContextSwitch

/-- `yieldyi`. -/
def yieldyi (port : TimerPort) : Traced Sched :=
  match s.current with
  | none => lift (.error .badPointer)
  | some t => yieldThread s t port

/-! ### `src/sync.rs` and `src/message.rs` -/

/-- `wake_waiter`. -/
def wakeWaiter (t : Tid) : Traced Sched :=
  match s.kind t with
  | .cfs => do
      let s ← lift (s.removeWaitThread t)
      recordWakeup s (some t)
      let s ← lift (s.enqueueRunqFromWaitq t)
      lift s.programWaitKtimer
  | .rt => enqueueKtimerqFromWaitq s t
  | .idle => pure s

/-- Wake a popped waiter and request a switch; also `MessageQueue::wake`. -/
def wake (waiter : Option Tid) : Traced Sched :=
  match waiter with
  | none => pure s
  | some t => do
      let s ← wakeWaiter s t
      pure s.requestContextSwitch

/-- Pop the first waiter of an object and wake it. -/
def wakeFirst (o : WaitObject) : Traced (Sched × Option Tid) := do
  let (s, waiter) ← lift (s.popWaitingThread o)
  let s ← wake s waiter
  pure (s, waiter)

section Kernel

variable {α : Type} (k : Kernel α)

/-- `give` of both semaphores. -/
def give (i : SemaphoreId) : Traced (Kernel α × Reply α) := do
  let (s, waiter) ← wakeFirst k.sched i.object
  let k := { k with sched := s }
  if waiter.isSome then pure (k, .done)
  else if k.word i < k.limit i then pure (k.setWord i (k.word i + 1), .done)
  else pure (k, .err .full)

/-- `Mutex::unlock_guard`. -/
def unlock (i : ℕ) : Traced (Kernel α × Reply α) :=
  if (k.mutex i).owner ≠ k.sched.current then lift (.error .badPointer)
  else do
    let k ← lift (k.restoreOwnerDeadline i k.sched.current)
    let (s, waiter) ← wakeFirst k.sched (.mutex i)
    pure (Kernel.setMutex { k with sched := s } i { k.mutex i with owner := waiter }, .done)

/-- `MessageQueue::try_send`. -/
def trySend (i : ℕ) (x : α) : Traced (Kernel α × Reply α) := do
  let pushed ← lift ((k.queue i).pushBack x)
  match pushed with
  | none => pure (k, .err .full)
  | some r => do
      let (s, _) ← wakeFirst k.sched (.messageQueueReceive i)
      pure (Kernel.setQueue { k with sched := s } i r, .done)

/-- `MessageQueue::try_receive`. -/
def tryReceive (i : ℕ) : Traced (Kernel α × Reply α) := do
  let popped ← lift (k.queue i).popFront
  match popped with
  | none => pure (k, .err .empty)
  | some (x, r) => do
      let (s, _) ← wakeFirst k.sched (.messageQueueSend i)
      pure (Kernel.setQueue { k with sched := s } i r, .message x)

/-- One turn of `send_with_wait`. -/
def send (i : ℕ) (x : α) (canBlock : Bool) (port : TimerPort) : Traced (Kernel α × Reply α) := do
  let (k', reply) ← trySend k i x
  match reply with
  | .err .full => lift (k'.block (.messageQueueSend i) (.send i x) canBlock port)
  | reply => pure (k', reply)

/-- One turn of `receive_with_wait`. -/
def receive (i : ℕ) (canBlock : Bool) (port : TimerPort) : Traced (Kernel α × Reply α) := do
  let (k', reply) ← tryReceive k i
  match reply with
  | .err .empty => lift (k'.block (.messageQueueReceive i) (.receive i) canBlock port)
  | reply => pure (k', reply)

/-- The next turn of the call that the current thread is in. -/
def retry (port : TimerPort) : Traced (Kernel α × Reply α) :=
  match k.sched.current with
  | none => lift (.error .badPointer)
  | some t =>
      match k.call t with
      | none => lift (.error .badPointer)
      | some (.send i x) => send (k.setCall t none) i x true port
      | some (.receive i) => receive (k.setCall t none) i true port

/-- A step that returns nothing. -/
def liftSched (x : Traced Sched) : Traced (Kernel α × Reply α) := do
  let s ← x
  pure ({ k with sched := s }, .done)

/-- The effect of a step and the events that it records. -/
def exec : Event α → Traced (Kernel α × Reply α)
  | .yieldyi port => liftSched k (yieldyi k.sched port)
  | .give i => give k i
  | .unlock i => unlock k i
  | .trySend i x => trySend k i x
  | .tryReceive i => tryReceive k i
  | .send i x canBlock port => send k i x canBlock port
  | .receive i canBlock port => receive k i canBlock port
  | .retry port => retry k port
  | .tick port fuel => liftSched k (handleSchedTick k.sched port fuel)
  | .schedule port => liftSched k (schedule k.sched port)
  -- the other operations call no hook
  | ev => lift (k.exec ev)

end Kernel

/-! ### Without the hooks -/

section Result

variable {s : Sched} {α : Type} {k : Kernel α}

@[simp] lemma recordContextSwitch_result (fromThread toThread : Option Tid) :
    (recordContextSwitch s fromThread toThread).result = .ok () := by
  rw [recordContextSwitch]
  split
  · rfl
  · split <;> rfl

@[simp] lemma recordWakeup_result (thread : Option Tid) :
    (recordWakeup s thread).result = .ok () := by
  rw [recordWakeup]
  split <;> rfl

@[simp] lemma recordYield_result (thread : Option Tid) (elapsedTicks : ℕ) :
    (recordYield s thread elapsedTicks).result = .ok () := by
  rw [recordYield]
  split <;> rfl

@[simp] lemma switchToCfsThread_result (next : Tid) :
    (switchToCfsThread s next).result = s.switchToCfsThread next := by
  simp [switchToCfsThread]

@[simp] lemma switchToIdleThread_result :
    (switchToIdleThread s).result = s.switchToIdleThread := by
  rw [switchToIdleThread]
  cases hi : s.idle with
  | none => rw [Sched.switchToIdleThread, hi, result_pure]
  | some i => simp

@[simp] lemma switchToIdleThreadWithCurrentRequeued_result :
    (switchToIdleThreadWithCurrentRequeued s).result =
      s.switchToIdleThreadWithCurrentRequeued := by
  simp [switchToIdleThreadWithCurrentRequeued, Sched.switchToIdleThreadWithCurrentRequeued]

@[simp] lemma runPopped_result (c next : Tid) :
    (runPopped s c next).result = s.runPopped c next := by
  rw [runPopped]
  by_cases hcfs : s.currentIsCfs = true
  · by_cases hblocked : ((s.state c).isBlocked || s.isIdleThread c) = true
    · rw [if_pos hcfs, if_pos hblocked, Sched.runPopped, if_pos hcfs, if_pos hblocked,
        switchToCfsThread_result]
    · by_cases hsame : c = next
      · rw [if_pos hcfs, if_neg hblocked, if_pos hsame, Sched.runPopped, if_pos hcfs,
          if_neg hblocked, if_pos hsame, result_lift]
      · rw [if_pos hcfs, if_neg hblocked, if_neg hsame]
        split <;> simp
  · rw [if_neg hcfs, Sched.runPopped, if_neg hcfs]
    simp

@[simp] lemma switchToRtThread_result (c next : Tid) :
    (switchToRtThread s c next).result = s.switchToRtThread c next := by
  simp [switchToRtThread, Sched.switchToRtThread]

@[simp] lemma pickNext_result (c : Tid) : (pickNext s c).result = s.pickNext c := by
  rw [pickNext, Sched.pickNext]
  rcases s.ktimers.next with _ | _ | _ | n
  · simp
  · simp only [result_ite]
    split
    · cases s.runq.tree <;> simp
    · simp
  · rfl
  · simp

@[simp] lemma schedule_result (port : TimerPort) :
    (schedule s port).result = s.schedule port := by
  rw [schedule, Sched.schedule]
  cases s.current <;> simp

@[simp] lemma wakeWaitThread_result (elapsed n : ℕ) (s : Sched) :
    (wakeWaitThread elapsed n s).result = Sched.wakeWaitThread elapsed n s := by
  induction n generalizing s with
  | zero => rfl
  | succ n ih =>
      rw [wakeWaitThread, Sched.wakeWaitThread]
      cases s.waitq.tree with
      | nil => rfl
      | cons t l => simp [ih]

@[simp] lemma dispatchTimer_result (k : Timer) (elapsed : ℕ) :
    (dispatchTimer s k elapsed).result = s.dispatchTimer k elapsed := by
  cases k with
  | wait => simp [dispatchTimer, Sched.dispatchTimer]
  | cfs => rfl
  | rt t => rfl

@[simp] lemma dispatchExpired_result (elapsed n : ℕ) (s : Sched) :
    (dispatchExpired elapsed n s).result = Sched.dispatchExpired elapsed n s := by
  induction n generalizing s with
  | zero => rfl
  | succ n ih =>
      rw [dispatchExpired, Sched.dispatchExpired]
      cases s.ktimers.first with
      | none => rfl
      | some k => simp [ih]

@[simp] lemma handleSchedTick_result (port : TimerPort) (fuel : ℕ) :
    (handleSchedTick s port fuel).result = s.handleSchedTick port fuel := by
  simp [handleSchedTick, Sched.handleSchedTick]

@[simp] lemma enqueueKtimerqFromWaitq_result (t : Tid) :
    (enqueueKtimerqFromWaitq s t).result = s.enqueueKtimerqFromWaitq t := by
  simp [enqueueKtimerqFromWaitq, Sched.enqueueKtimerqFromWaitq]

@[simp] lemma yieldyi_result (port : TimerPort) :
    (yieldyi s port).result = s.yieldyi port := by
  rw [yieldyi, Sched.yieldyi]
  cases s.current with
  | none => rfl
  | some t =>
      simp only [yieldThread, Sched.yieldThread]
      cases s.threadSchedulerKtimer t <;> simp

@[simp] lemma wakeFirst_result (o : WaitObject) :
    (wakeFirst s o).result = s.wakeFirst o := by
  have hwake : ∀ (s : Sched) (waiter : Option Tid), (wake s waiter).result = s.wake waiter := by
    intro s waiter
    cases waiter with
    | none => rfl
    | some t =>
        simp only [wake, Sched.wake, wakeWaiter, Sched.wakeWaiter, result_bind]
        cases s.kind t <;> simp
  simp [wakeFirst, Sched.wakeFirst, hwake]

@[simp] lemma trySend_result (i : ℕ) (x : α) : (trySend k i x).result = k.trySend i x := by
  simp only [trySend, Kernel.trySend, result_bind, result_lift]
  congr 1
  funext pushed
  cases pushed <;> simp

@[simp] lemma tryReceive_result (i : ℕ) : (tryReceive k i).result = k.tryReceive i := by
  simp only [tryReceive, Kernel.tryReceive, result_bind, result_lift]
  congr 1
  funext popped
  cases popped <;> simp

@[simp] lemma send_result (i : ℕ) (x : α) (canBlock : Bool) (port : TimerPort) :
    (send k i x canBlock port).result = k.send i x canBlock port := by
  simp only [send, Kernel.send, result_bind, trySend_result]
  congr 1
  funext r
  split <;> simp_all

@[simp] lemma receive_result (i : ℕ) (canBlock : Bool) (port : TimerPort) :
    (receive k i canBlock port).result = k.receive i canBlock port := by
  simp only [receive, Kernel.receive, result_bind, tryReceive_result]
  congr 1
  funext r
  split <;> simp_all

/-- **The hooks change nothing else.** -/
theorem exec_result (k : Kernel α) (ev : Event α) : (exec k ev).result = k.exec ev := by
  cases ev with
  | yieldyi port => simp [exec, liftSched, Kernel.exec, Kernel.lift]
  | give i =>
      simp only [exec, Kernel.exec, give, Kernel.give, result_bind, wakeFirst_result, result_ite]
      rfl
  | unlock i =>
      simp only [exec, Kernel.exec, unlock, Kernel.unlock, result_bind, wakeFirst_result,
        result_ite, result_lift]
      rfl
  | trySend i x => simp [exec, Kernel.exec]
  | tryReceive i => simp [exec, Kernel.exec]
  | send i x canBlock port => simp [exec, Kernel.exec]
  | receive i canBlock port => simp [exec, Kernel.exec]
  | retry port =>
      simp only [exec, Kernel.exec, retry, Kernel.retry]
      cases k.sched.current with
      | none => rfl
      | some t =>
          simp only
          rcases k.call t with _ | (⟨i, x⟩ | i) <;> simp
  | tick port fuel => simp [exec, liftSched, Kernel.exec, Kernel.lift]
  | schedule port => simp [exec, liftSched, Kernel.exec, Kernel.lift]
  | _ => rfl

end Result

end Trace

end Rtsched

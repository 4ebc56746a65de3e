import Rtsched.Kernel.Ktimer
import Rtsched.Kernel.Runq

/-!
The scheduler: the functions of `src/waitq.rs`, `src/sched.rs` and `src/thread.rs`, and those of
`src/ktimer.rs`, `src/runq.rs` and `src/sync.rs` that move threads between queues.

`none` as a result of a blocking function stands for `Err(WaitQueueError::NotFound)`, which
leaves the state as it was.
-/

namespace Rtsched

open Ordered Outcome

/-- `WaitEntity::cmp`. -/
def WaitQueue.cmp (w : WaitQueue) : Tid → Tid → Ordering :=
  compareLex (compareOn fun t => (w.entity t).wakeAt)
    (keyCmp (fun t => eventRank (w.entity t).waitevt) id)

instance (w : WaitQueue) : Std.TransCmp w.cmp := inferInstanceAs (Std.TransCmp (compareLex _ _))

instance (w : WaitQueue) : Std.LawfulEqCmp w.cmp where
  eq_of_compare {a b} hab := by
    simp only [WaitQueue.cmp, compareLex_eq_eq] at hab
    exact (lawfulEqCmp_keyCmp _ Function.injective_id).eq_of_compare hab.2

namespace Sched

variable (s : Sched)

/-- `ThreadCtx::set_state`. -/
def setState (t : Tid) (x : ThreadState) : Except Fault Sched :=
  if (s.state t).canTransitionTo x then .ok { s with state := Function.update s.state t x }
  else .error .badTransition

/-- `request_context_switch`. -/
def requestContextSwitch : Sched := { s with pendsv := true }

/-- `is_idle_thread`. -/
def isIdleThread (t : Tid) : Bool := s.idle = some t

/-- `thread_scheduler_ktimer`: the timer a thread is scheduled by. -/
def threadSchedulerKtimer (t : Tid) : Option Timer :=
  match s.kind t with
  | .cfs => some .cfs
  | .rt => some (.rt t)
  | .idle => none

/-! ### The wait queue -/

/-- The earliest wake-up time of the timeout tree. -/
def firstWakeAt : Option ℕ := s.waitq.tree.head?.map fun t => (s.waitq.entity t).wakeAt

/-- `program_wait_ktimer`. -/
def programWaitKtimer : Except Fault Sched := do
  let q ← s.ktimers.programWaitKtimer s.firstWakeAt
  .ok { s with ktimers := q }

/-- Assign the wait entity of a thread. -/
def setWaitEntity (t : Tid) (e : WaitEntity) : Sched :=
  { s with waitq := { s.waitq with entity := Function.update s.waitq.entity t e } }

/-- `insert_wait_thread`. -/
def insertWaitThread (t : Tid) : Except Fault Sched :=
  if s.kind t = .idle then .error .badPointer
  else if (s.waitq.entity t).wakeAt = u64Max then do
    let s ← s.setState t .suspended
    if t ∈ s.waitq.suspended then .error .alreadyLinked
    else .ok { s with waitq := { s.waitq with suspended := s.waitq.suspended ++ [t] } }
  else do
    let s ← s.setState t .waiting
    let l ← link s.waitq.cmp t s.waitq.tree
    .ok { s with waitq := { s.waitq with tree := l } }

/-- `remove_wait_thread`. -/
def removeWaitThread (t : Tid) : Except Fault Sched :=
  if s.kind t = .idle then .error .badPointer
  else if s.state t = .suspended then do
    let l ← unlink t s.waitq.suspended
    .ok { s with waitq := { s.waitq with suspended := l } }
  else do
    let l ← unlink t s.waitq.tree
    .ok { s with waitq := { s.waitq with tree := l } }

/-! ### Blocking and waking -/

/-- `dequeue_runq_to_waitq`. -/
def dequeueRunqToWaitq (t : Tid) : Except Fault Sched :=
  if s.kind t ≠ .cfs then .error .badPointer
  else do
    -- a running thread is not in the run queue
    let s ← (if s.state t = .ready then do
        let r ← s.runq.remove t
        .ok { s with runq := r }
      else .ok s)
    let s ← s.insertWaitThread t
    programWaitKtimer { s with runq := s.runq.dropPriority t }

/-- `dequeue_ktimerq_to_waitq`; a thread that is not RT is left alone. -/
def dequeueKtimerqToWaitq (t : Tid) : Except Fault Sched :=
  if s.kind t ≠ .rt then .ok s
  else do
    let q ← s.ktimers.removeKtimer (.rt t)
    let s ← insertWaitThread { s with ktimers := q } t
    s.programWaitKtimer

/-- `enqueue_runq_from_waitq`. -/
def enqueueRunqFromWaitq (t : Tid) : Except Fault Sched :=
  if s.kind t ≠ .cfs then .error .badPointer
  else if t ∈ s.runq.tree then .error .alreadyLinked
  else do
    let s ← s.setState t .ready
    let r ← s.runq.enqueueFromWaitq t
    .ok { s with runq := r }

/-- `enqueue_ktimerq_from_waitq`; a thread that is not RT is left alone. -/
def enqueueKtimerqFromWaitq (t : Tid) : Except Fault Sched :=
  if s.kind t ≠ .rt then .ok s
  else do
    let s ← s.removeWaitThread t
    let s ← s.setState t .ready
    let q ← s.ktimers.enqueueKtimer (.rt t)
    programWaitKtimer { s with ktimers := q }

/-- `block_current_thread`; the result is the captured deadline. -/
def blockCurrentThread (t : Tid) (ty : SyncType) (port : TimerPort) :
    Except Fault (Option (Sched × ℕ)) :=
  if s.current ≠ some t then .error .badPointer
  else
    match s.threadSchedulerKtimer t with
    | none => .ok none
    | some k => do
        let deadlineAt := (s.ktimers.entity k).expireAt
        let q ← s.ktimers.yieldKtimer k port.elapsedTicksSinceCurrentReload false
        let s := setWaitEntity { s with ktimers := q } t ⟨u64Max, some ty⟩
        let s ← (if s.kind t = .cfs then s.dequeueRunqToWaitq t else s.dequeueKtimerqToWaitq t)
        .ok (some (s, deadlineAt))

/-- `SyncEntity::cmp`. -/
def syncCmp : Tid → Tid → Ordering := keyCmp s.deadlineAt id

instance : Std.LawfulEqCmp s.syncCmp := lawfulEqCmp_keyCmp _ Function.injective_id

/-- `insert_sync_waiter`. -/
def insertSyncWaiter (o : WaitObject) (t : Tid) (deadlineAt : ℕ) : Except Fault Sched := do
  let s := { s with deadlineAt := Function.update s.deadlineAt t deadlineAt }
  let l ← link s.syncCmp t (s.waiters o)
  .ok { s with waiters := Function.update s.waiters o l }

/-- `block_current_thread_on`, also the blocking part of a message queue's `block`. -/
def blockCurrentThreadOn (o : WaitObject) (t : Tid) (port : TimerPort) :
    Except Fault (Option (Sched × ℕ)) := do
  let blocked ← s.blockCurrentThread t o.syncType port
  match blocked with
  | none => .ok none
  | some (s, deadlineAt) => do
      let s ← s.insertSyncWaiter o t deadlineAt
      .ok (some (s.requestContextSwitch, deadlineAt))

/-- `pop_waiting_thread`. -/
def popWaitingThread (o : WaitObject) : Except Fault (Sched × Option Tid) :=
  match s.waiters o with
  | [] => .ok (s, none)
  | t :: l =>
      if (s.state t).isBlocked then
        .ok ({ s with waiters := Function.update s.waiters o l }, some t)
      else .error .badPointer

/-- `wake_waiter`. -/
def wakeWaiter (t : Tid) : Except Fault Sched :=
  match s.kind t with
  | .cfs => do
      let s ← s.removeWaitThread t
      let s ← s.enqueueRunqFromWaitq t
      s.programWaitKtimer
  | .rt => s.enqueueKtimerqFromWaitq t
  | .idle => .ok s

/-! ### Timer dispatch -/

/-- The RT branch of `wake_wait_thread`. -/
def wakeRtThread (t : Tid) (elapsed : ℕ) : Except Fault Sched := do
  let q := s.ktimers.setRuntime t (satAdd32 (s.ktimers.runtime t) elapsed)
  let q := q.recordRtBudgetOverrun t
  let q := q.setEntity (.rt t) ((q.entity (.rt t)).setExpireAfter q.nowTicks
    ((q.entity (.rt t)).relativeDeadlineTicks - q.runtime t))
  let q ← q.enqueueActive (.rt t)
  .ok { s with ktimers := q }

/-- Make a thread popped from the timeout tree runnable. -/
def wakeTimed (t : Tid) (elapsed : ℕ) : Except Fault Sched :=
  match s.kind t with
  | .cfs => s.enqueueRunqFromWaitq t
  | .rt => s.wakeRtThread t elapsed
  | .idle => .ok s

/-- `wake_wait_thread` with `pop_expired_wait_thread`: at most as many turns as there are threads
in the timeout tree. -/
def wakeWaitThread (elapsed : ℕ) : ℕ → Sched → Except Fault Sched
  | 0, s => .ok s
  | n + 1, s =>
      match s.waitq.tree with
      | [] => .ok s
      | t :: l =>
          if (s.waitq.entity t).wakeAt ≤ s.ktimers.nowTicks then do
            let s ← setState { s with waitq := { s.waitq with tree := l } } t .ready
            let s ← s.wakeTimed t elapsed
            wakeWaitThread elapsed n s
          else .ok s

/-- What `dispatch_expired` does with one expired timer that it has removed. -/
def dispatchTimer (k : Timer) (elapsed : ℕ) : Except Fault Sched :=
  match k with
  | .wait => do
      let s ← wakeWaitThread elapsed s.waitq.tree.length s
      -- `update_wait_ktimer_deadline`
      let q := s.ktimers.setEntity .wait
        ((s.ktimers.entity .wait).setExpireAt (KTimers.waitExpireAt s.firstWakeAt))
      let q ← q.enqueueInactive .wait
      .ok { s with ktimers := q }
  | .cfs => do
      let e := s.ktimers.entity .cfs
      let q ← (if e.active then
          (s.ktimers.setEntity .cfs
            (e.setExpireAfter s.ktimers.nowTicks (e.periodTicks - elapsed))).enqueueInactive .cfs
        else
          (s.ktimers.setEntity .cfs
            (e.setExpireAfter s.ktimers.nowTicks e.periodTicks)).enqueueActive .cfs)
      .ok { s with ktimers := q }
  | .rt t =>
      if (s.ktimers.entity (.rt t)).active && s.ktimers.isRealRtDeadlineMiss t then
        .error .deadlineMiss
      else do
        let q ← (s.ktimers.rearmRt t).enqueueActive (.rt t)
        .ok { s with ktimers := q }

/-- `dispatch_expired`; its result is the first active timer of the new queue. -/
def dispatchExpired (elapsed : ℕ) : ℕ → Sched → Except Fault Sched
  | 0, _ => .error .hang
  | n + 1, s =>
      match s.ktimers.first with
      | none => .ok s
      | some k =>
          if s.ktimers.expired k then do
            let q ← s.ktimers.remove k
            let s ← dispatchTimer { s with ktimers := q } k elapsed
            dispatchExpired elapsed n s
          else .ok s

/-- `handle_sched_tick`, with a bound on the number of timers dispatched. -/
def handleSchedTick (port : TimerPort) (fuel : ℕ) : Except Fault Sched :=
  if s.started then do
    let elapsed := s.ktimers.elapsedTicksSinceLastInterrupt port
    let s ← dispatchExpired elapsed fuel { s with ktimers := s.ktimers.advanceTime elapsed }
    .ok (requestContextSwitch
      { s with ktimers := s.ktimers.updateNextKtimer s.ktimers.firstActive })
  else .ok s

/-! ### Operations of the current thread -/

/-- The body of `yieldyi` for the current thread. -/
def yieldThread (t : Tid) (port : TimerPort) : Except Fault Sched :=
  match s.threadSchedulerKtimer t with
  | none => .ok s
  | some k => do
      let q ← s.ktimers.yieldKtimer k port.elapsedTicksSinceCurrentReload true
      .ok (requestContextSwitch { s with ktimers := q.updateNextKtimer q.firstActive })

/-- `yieldyi`. -/
def yieldyi (port : TimerPort) : Except Fault Sched :=
  match s.current with
  | none => .error .badPointer
  | some t => s.yieldThread t port

/-- The body of `msleepyi` for the current thread. -/
def msleepThread (t : Tid) (port : TimerPort) (ticksPerMs msec : ℕ) : Except Fault Sched :=
  match s.threadSchedulerKtimer t with
  | none => .ok s
  | some k => do
      let q ← s.ktimers.yieldKtimer k port.elapsedTicksSinceCurrentReload false
      let s := setWaitEntity { s with ktimers := q } t
        ⟨satAdd64 q.nowTicks (satMul32 msec ticksPerMs), none⟩
      let s ← (if s.currentIsCfs then s.dequeueRunqToWaitq t else s.dequeueKtimerqToWaitq t)
      .ok s.requestContextSwitch

/-- `msleepyi`. -/
def msleepyi (port : TimerPort) (ticksPerMs msec : ℕ) : Except Fault Sched :=
  match s.current with
  | none => .error .badPointer
  | some t => s.msleepThread t port ticksPerMs msec

/-- `set_rt_thread_start_time`: the runtime counter of the current thread is assigned if that is an
RT thread; the result says whether it was. -/
def setRtThreadStartTime (startTime : ℕ) : Sched × Bool :=
  match s.current with
  | none => (s, false)
  | some t =>
      if s.kind t = .rt then ({ s with ktimers := s.ktimers.setRuntime t startTime }, true)
      else (s, false)

/-! ### Switching threads -/

/-- Make a thread that is not blocked ready. -/
def readyUnlessBlocked (t : Tid) : Except Fault Sched :=
  if (s.state t).isBlocked then .ok s else s.setState t .ready

/-- The outgoing thread of `switch_to_cfs_thread` and `switch_to_idle_thread`. -/
def leaveCurrent (next : Tid) : Except Fault Sched :=
  match s.current with
  | none => .ok s
  | some c => if c = next then .ok s else s.readyUnlessBlocked c

/-- `switch_to_cfs_thread`. -/
def switchToCfsThread (next : Tid) : Except Fault Sched := do
  let s ← s.leaveCurrent next
  let s ← s.setState next .running
  .ok { s with current := some next, currentIsCfs := true }

/-- `switch_to_idle_thread`. -/
def switchToIdleThread : Except Fault Sched :=
  match s.idle with
  | none => .ok s
  | some i => do
      let s ← s.leaveCurrent i
      let s ← s.setState i .running
      .ok { s with current := some i, currentIsCfs := s.kind i = .cfs }

/-- `requeue_current_cfs_thread_before_idle`. -/
def requeueCurrentCfsThreadBeforeIdle : Except Fault Sched :=
  match s.idle, s.current with
  | some _, some c =>
      if !s.currentIsCfs || s.isIdleThread c || (s.state c).isBlocked then .ok s
      else if c ∈ s.runq.tree then .error .alreadyLinked
      else do
        let s ← s.setState c .ready
        let r ← s.runq.insert c
        .ok { s with runq := r }
  | _, _ => .ok s

/-- `switch_to_idle_thread_with_current_requeued`. -/
def switchToIdleThreadWithCurrentRequeued : Except Fault Sched := do
  let s ← s.requeueCurrentCfsThreadBeforeIdle
  s.switchToIdleThread

/-- The charge at the start of `schedule`. -/
def chargeCurrent (c : Tid) (elapsed : ℕ) : Except Fault Sched :=
  if s.currentIsCfs && s.state c = .running && !s.isIdleThread c then do
    let r ← s.runq.charge c elapsed
    .ok { s with runq := r }
  else .ok s

/-- The branch of `schedule` for the active CFS timer, once `next` has been popped. -/
def runPopped (c next : Tid) : Except Fault Sched :=
  if s.currentIsCfs then
    if (s.state c).isBlocked || s.isIdleThread c then s.switchToCfsThread next
    else if c = next then .error .poppedCurrent
    else if (s.runq.entity next).vruntime < (s.runq.entity c).vruntime then do
      let s ← s.setState c .ready
      let r ← s.runq.insert c
      let s ← setState { s with runq := r } next .running
      .ok { s with current := some next, currentIsCfs := true }
    else do
      let r ← s.runq.insert next
      .ok { s with runq := r }
  else do
    let s ← s.readyUnlessBlocked c
    s.switchToCfsThread next

/-- The outgoing thread of the branch of `schedule` for the timer of an RT thread. -/
def requeueCurrent (c : Tid) : Except Fault Sched :=
  if (s.state c).isBlocked then .ok s
  else do
    let s ← s.setState c .ready
    if s.currentIsCfs && !s.isIdleThread c then do
      let r ← s.runq.insert c
      .ok { s with runq := r }
    else .ok s

/-- The branch of `schedule` for the timer of an RT thread. -/
def switchToRtThread (c next : Tid) : Except Fault Sched := do
  let s ← s.requeueCurrent c
  let s ← s.setState next .running
  .ok { s with current := some next, currentIsCfs := false }

/-- The choice of the next thread in `schedule`. -/
def pickNext (c : Tid) : Except Fault Sched :=
  match s.ktimers.next with
  | none => s.switchToIdleThreadWithCurrentRequeued
  | some .cfs =>
      if (s.ktimers.entity .cfs).active then
        match s.runq.tree with
        | [] => s.switchToIdleThreadWithCurrentRequeued
        | next :: l => runPopped { s with runq := { s.runq with tree := l } } c next
      else s.switchToIdleThreadWithCurrentRequeued
  | some .wait => .error .badPointer
  | some (.rt next) => s.switchToRtThread c next

/-- `schedule`, the body of PendSV; the timer is then programmed with `nextKtimerReload`. -/
def schedule (port : TimerPort) : Except Fault Sched :=
  match s.current with
  | none => .error .badPointer
  | some c => do
      let s ← s.chargeCurrent c (s.ktimers.elapsedTicksSinceLastInterrupt port)
      let s ← s.pickNext c
      .ok { s with pendsv := false }

/-! ### Creating threads -/

/-- The fields every thread control block starts with. -/
def initThread (t : Tid) (kind : ThreadKind) : Sched :=
  setWaitEntity { s with
    spawned := t :: s.spawned
    kind := Function.update s.kind t kind
    state := Function.update s.state t .ready
    deadlineAt := Function.update s.deadlineAt t 0 } t ⟨0, none⟩

/-- `CfsThreadBuilder::spawn`. -/
def spawnCfs (t : Tid) (priority : ℕ) : Except Fault Sched :=
  if priority = 0 then .error .badPointer
  else do
    let s := s.initThread t .cfs
    let s ← s.setState t .ready
    let r ← (s.runq.setEntity t ⟨0, 0, priority⟩).enqueueThread t
    .ok { s with runq := r }

/-- A new RT thread and its timer from `RtKTimer::new_with_timing`. -/
def initRtThread (t : Tid) (timing : RtTiming) : Sched :=
  let q := (s.ktimers.setRuntime t 0).setEntity (.rt t)
    (.newWithTiming timing.relativeDeadlineTicks timing)
  { s.initThread t .rt with
    ktimers := { q with missCnt := Function.update q.missCnt t 0 } }

/-- `RtThreadBuilder::spawn`. -/
def spawnRt (t : Tid) (timing : RtTiming) : Except Fault Sched := do
  let s := s.initRtThread t timing
  let q ← s.ktimers.enqueueKtimer (.rt t)
  .ok { s with ktimers := q }

/-- `spawn_main_thread`: the idle thread is created, registered and run. -/
def spawnMainThread (t : Tid) : Except Fault Sched := do
  let s := s.initThread t .idle
  let s ← setState { s with idle := some t } t .running
  .ok { s with current := some t, currentIsCfs := s.kind t = .cfs, started := true }

/-- `KTimerQueue::new`, with no RT thread. -/
def newKtimers (layout : Layout) : KTimers where
  layout := layout
  entity _ := ⟨ktimerExpireNever, false, ⟨0, 0, 0⟩⟩
  active := []
  inactive := []
  nowTicks := 0
  next := none
  runtime _ := 0
  missCnt _ := 0

/-- The statics of the scheduler before any thread exists. -/
def new (q : KTimers) : Sched where
  ktimers := q
  runq := ⟨[], 0, fun _ => ⟨0, 0, 0⟩⟩
  waitq := ⟨[], [], fun _ => ⟨0, none⟩⟩
  spawned := []
  kind _ := .idle
  state _ := .ready
  waiters _ := []
  deadlineAt _ := 0
  current := none
  currentIsCfs := false
  idle := none
  started := false
  pendsv := false

/-- The CFS timer after `CfsKTimer::new` and `set_expire`. -/
def cfsEntity (periodTicks execTicks : ℕ) : KTimerEntity :=
  (KTimerEntity.newWithTiming periodTicks ⟨periodTicks, execTicks, execTicks⟩).setExpireAt
    execTicks

/-- `init_ktimer_queue` followed by `init_cfs`. -/
def boot (layout : Layout) (periodTicks execTicks : ℕ) : Except Fault Sched := do
  let q ← (newKtimers layout).enqueueInactive .wait
  let q ← (q.setEntity .cfs (cfsEntity periodTicks execTicks)).enqueueKtimer .cfs
  .ok (.new q)

end Sched

end Rtsched

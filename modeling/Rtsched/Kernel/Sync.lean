import Rtsched.Kernel.Sched
import Rtsched.Kernel.Ring

/-!
The semaphores and mutexes of `src/sync.rs`.

The word of a semaphore is its `available` flag or its `count`; the methods of the two kinds
differ in the limit of that word and in the waiter tree alone.  The value a mutex protects plays
no part and is left out, so a guard is the ownership of the mutex.
-/

namespace Rtsched

open Ordered Outcome

namespace Sched

variable (s : Sched)

/-- `thread_scheduler_expire_at`. -/
def threadSchedulerExpireAt (t : Tid) : ℕ :=
  match s.threadSchedulerKtimer t with
  | none => ktimerExpireNever
  | some k => (s.ktimers.entity k).expireAt

/-- `set_thread_scheduler_expire_at`. -/
def setThreadSchedulerExpireAt (t : Tid) (expireAt : ℕ) : Except Fault Sched :=
  match s.threadSchedulerKtimer t with
  | none => .ok s
  | some k => do
      let q ← s.ktimers.setSchedulerExpireAt k expireAt
      .ok { s with ktimers := q }

/-- Wake a popped waiter and request a switch; also `MessageQueue::wake`. -/
def wake (waiter : Option Tid) : Except Fault Sched :=
  match waiter with
  | none => .ok s
  | some t => do
      let s ← s.wakeWaiter t
      .ok s.requestContextSwitch

/-- Pop the first waiter of an object and wake it. -/
def wakeFirst (o : WaitObject) : Except Fault (Sched × Option Tid) := do
  let (s, waiter) ← s.popWaitingThread o
  let s ← s.wake waiter
  .ok (s, waiter)

end Sched

/-! ### The kernel -/

/-- A semaphore of either kind. -/
inductive SemaphoreId
  | binary (i : ℕ)
  | counting (i : ℕ)
  deriving DecidableEq, Repr

/-- The waiter tree of a semaphore. -/
def SemaphoreId.object : SemaphoreId → WaitObject
  | binary i => .binarySemaphore i
  | counting i => .countingSemaphore i

/-- A `MutexState` without its waiter tree. -/
structure MutexState where
  owner : Option Tid
  ownerOriginalDeadlineAt : ℕ
  ownerBoosted : Bool
  deriving DecidableEq, Repr

/-- `MutexState::new`. -/
def MutexState.new : MutexState := ⟨none, 0, false⟩

/-- A call of `send` or `receive` whose thread has blocked and will retry. -/
inductive Call (α : Type)
  | send (i : ℕ) (message : α)
  | receive (i : ℕ)

/-- The scheduler with its synchronization objects: the words and limits of the semaphores, the
mutexes, the rings of the message queues, and the blocking queue call each thread is in. -/
structure Kernel (α : Type) where
  sched : Sched
  word : SemaphoreId → ℕ
  maxCount : ℕ → ℕ
  mutex : ℕ → MutexState
  queue : ℕ → Ring α
  call : Tid → Option (Call α)

/-- The errors of `SemaphoreError`, `MutexError` and `MessageQueueStatus`; the only wait queue
error is `NotFound`. -/
inductive Status
  | wouldBlock
  | wouldDeadlock
  | full
  | empty
  | noCurrentThread
  | invalidContext
  | waitQueueNotFound
  deriving DecidableEq, Repr

/-- The result of an operation; a blocking call that has parked its thread has none yet. -/
inductive Reply (α : Type)
  | done
  | blocked
  | message (x : α)
  | flag (b : Bool)
  | err (status : Status)
  deriving DecidableEq

namespace Kernel

variable {α : Type} (k : Kernel α)

/-- Block the current thread on an object. -/
def blockOn (o : WaitObject) (t : Tid) (port : TimerPort) :
    Except Fault (Kernel α × Option ℕ) := do
  let blocked ← k.sched.blockCurrentThreadOn o t port
  match blocked with
  | none => .ok (k, none)
  | some (s, deadlineAt) => .ok ({ k with sched := s }, some deadlineAt)

/-! ### Semaphores -/

/-- The largest value of a semaphore's word. -/
def limit : SemaphoreId → ℕ
  | .binary _ => 1
  | .counting i => k.maxCount i

def setWord (i : SemaphoreId) (n : ℕ) : Kernel α :=
  { k with word := Function.update k.word i n }

/-- `try_take` of both semaphores. -/
def tryTake (i : SemaphoreId) : Kernel α × Reply α :=
  if 0 < k.word i then (k.setWord i (k.word i - 1), .done) else (k, .err .wouldBlock)

/-- `take` of both semaphores. -/
def take (i : SemaphoreId) (port : TimerPort) : Except Fault (Kernel α × Reply α) :=
  if 0 < k.word i then .ok (k.setWord i (k.word i - 1), .done)
  else
    match k.sched.current with
    | none => .ok (k, .err .noCurrentThread)
    | some t => do
        let (k, blocked) ← k.blockOn i.object t port
        .ok (k, if blocked.isSome then .blocked else .err .waitQueueNotFound)

/-- `give` of both semaphores. -/
def give (i : SemaphoreId) : Except Fault (Kernel α × Reply α) := do
  let (s, waiter) ← k.sched.wakeFirst i.object
  let k := { k with sched := s }
  if waiter.isSome then .ok (k, .done)
  else if k.word i < k.limit i then .ok (k.setWord i (k.word i + 1), .done)
  else .ok (k, .err .full)

/-! ### Mutexes -/

def setMutex (i : ℕ) (m : MutexState) : Kernel α :=
  { k with mutex := Function.update k.mutex i m }

/-- `boost_owner_deadline`. -/
def boostOwnerDeadline (i : ℕ) (owner waiter : Tid) (waiterDeadlineAt : ℕ) :
    Except Fault (Kernel α) :=
  let boostDeadlineAt := min waiterDeadlineAt k.sched.ktimers.earliestQueuedSchedulerExpireAt
  let ownerDeadlineAt := k.sched.threadSchedulerExpireAt owner
  let m := k.mutex i
  if k.sched.kind owner = .cfs ∧ k.sched.kind waiter = .cfs then .ok k
  else if ownerDeadlineAt ≤ boostDeadlineAt then .ok k
  else do
    let s ← k.sched.setThreadSchedulerExpireAt owner boostDeadlineAt
    .ok (setMutex { k with sched := s } i
      (if m.ownerBoosted then m else ⟨m.owner, ownerDeadlineAt, true⟩))

/-- `restore_owner_deadline`; the owner token is null when no thread has been selected. -/
def restoreOwnerDeadline (i : ℕ) (owner : Option Tid) : Except Fault (Kernel α) :=
  let m := k.mutex i
  if m.ownerBoosted then do
    let s ← (match owner with
      | none => .ok k.sched
      | some t => k.sched.setThreadSchedulerExpireAt t m.ownerOriginalDeadlineAt)
    .ok (setMutex { k with sched := s } i ⟨m.owner, 0, false⟩)
  else .ok k

/-- `Mutex::try_lock`. -/
def tryLock (i : ℕ) : Kernel α × Reply α :=
  match k.sched.current, (k.mutex i).owner with
  | none, _ => (k, .err .noCurrentThread)
  | some t, none => (k.setMutex i { k.mutex i with owner := some t }, .done)
  | some t, some owner => (k, .err (if owner = t then .wouldDeadlock else .wouldBlock))

/-- `Mutex::lock`. -/
def lock (i : ℕ) (port : TimerPort) : Except Fault (Kernel α × Reply α) :=
  match k.sched.current, (k.mutex i).owner with
  | none, _ => .ok (k, .err .noCurrentThread)
  | some t, none => .ok (k.setMutex i { k.mutex i with owner := some t }, .done)
  | some t, some owner =>
      if owner = t then .ok (k, .err .wouldDeadlock)
      else do
        let (k, blocked) ← k.blockOn (.mutex i) t port
        match blocked with
        | none => .ok (k, .err .waitQueueNotFound)
        | some deadlineAt => do
            let k ← k.boostOwnerDeadline i owner t deadlineAt
            .ok (k, .blocked)

/-- `Mutex::unlock_guard`. -/
def unlock (i : ℕ) : Except Fault (Kernel α × Reply α) :=
  if (k.mutex i).owner ≠ k.sched.current then .error .badPointer
  else do
    let k ← k.restoreOwnerDeadline i k.sched.current
    let (s, waiter) ← k.sched.wakeFirst (.mutex i)
    .ok (setMutex { k with sched := s } i { k.mutex i with owner := waiter }, .done)

end Kernel

end Rtsched

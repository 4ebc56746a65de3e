import Rtsched.Ktimer.Entity
import Rtsched.Lib.Increasing
import Rtsched.Lib.Outcome

/-!
The state of the scheduler, grouped by the source file that owns it.

Threads are named by the address of their `ThreadCtx`.  The entities embedded in a thread sit at
fixed offsets, so ties between them are decided by the thread's address.  A timer is the CFS
timer, the wait timer, or the timer of one RT thread; `Layout` gives its address.

A tree stands for its in-order sequence, which is all the pointer-level operations are specified
by (`TreeMem.insert_spec`, `TreeMem.remove_spec`, `QueueMem.insert_spec`,
`QueueMem.remove_spec`): inserting a linked entity and removing one that is not linked are
faults, as are failed assertions and panics.  `QueueMem.Represents`, `WaitMem.Represents` and
`RunqMem.runQueue` connect the sequences of the timers, of the wait queue and of the run queue to
the pointers.
-/

namespace Rtsched

open Ordered

/-- The address of a thread. -/
abbrev Tid := ℕ

/-- How a step of the kernel can fail. -/
inductive Fault
  /-- An entity that is linked is inserted. -/
  | alreadyLinked
  /-- An entity that is not linked is removed. -/
  | notLinked
  /-- The assertion of `set_state`. -/
  | badTransition
  /-- A null pointer is dereferenced or another assertion fails. -/
  | badPointer
  /-- `schedule` pops the running thread from its own queue. -/
  | poppedCurrent
  /-- The panic of `record_rt_deadline_miss`. -/
  | deadlineMiss
  /-- An arithmetic overflow or a division by zero in the CFS accounting. -/
  | arithmetic
  /-- An index of a message ring overflows or is out of bounds. -/
  | badIndex
  /-- A slot of a message ring is read that holds no message. -/
  | uninitialized
  /-- `dispatch_expired` keeps looping. -/
  | hang
  deriving DecidableEq, Repr

/-- The faults that do not touch the links of any queue: the deadline-miss panic, the CFS
arithmetic and an endless dispatch. -/
def Fault.Benign (f : Fault) : Prop := f = .deadlineMiss ∨ f = .arithmetic ∨ f = .hang

instance : DecidablePred Fault.Benign := fun f => by unfold Fault.Benign; infer_instance

lemma Fault.benign_of_arithmetic {f : Fault} (h : f = .arithmetic) : f.Benign := Or.inr (Or.inl h)

/-! ### Trees as sequences -/

section Tree

variable {α : Type*} [DecidableEq α]

/-- `RBTree::insert` on the in-order sequence. -/
def link (cmp : α → α → Ordering) (x : α) (l : List α) : Except Fault (List α) :=
  if x ∈ l then .error .alreadyLinked else .ok (ordInsert cmp x l)

/-- `RBTree::remove` on the in-order sequence. -/
def unlink (x : α) (l : List α) : Except Fault (List α) :=
  if x ∈ l then .ok (l.erase x) else .error .notLinked

lemma link_of_notMem {cmp : α → α → Ordering} {x : α} {l : List α} (h : x ∉ l) :
    link cmp x l = .ok (ordInsert cmp x l) := if_neg h

lemma unlink_of_mem {x : α} {l : List α} (h : x ∈ l) : unlink x l = .ok (l.erase x) := if_pos h

end Tree

/-! ### Threads -/

/-- `ThreadState`. -/
inductive ThreadState
  | ready
  | running
  | waiting
  | suspended
  deriving DecidableEq, Repr

namespace ThreadState

def isBlocked : ThreadState → Bool
  | waiting | suspended => true
  | ready | running => false

def canTransitionTo : ThreadState → ThreadState → Bool
  | ready, _ | running, _ => true
  | waiting, ready | waiting, waiting => true
  | suspended, ready | suspended, suspended => true
  | waiting, _ | suspended, _ => false

end ThreadState

/-- `ThreadKind`. -/
inductive ThreadKind
  | idle
  | cfs
  | rt
  deriving DecidableEq, Repr

/-- `SyncType`. -/
inductive SyncType
  | binarySemaphore
  | countingSemaphore
  | mutex
  | messageQueueSend
  | messageQueueReceive
  deriving DecidableEq, Repr

/-- `SyncType::wait_event`: the four characters of the tag, big-endian. -/
def SyncType.waitEvent : SyncType → ℕ
  | binarySemaphore => 0x73656d62
  | countingSemaphore => 0x73656d63
  | mutex => 0x6d757465
  | messageQueueSend => 0x6d717478
  | messageQueueReceive => 0x6d717278

/-- The place of an optional event in the order of `Option<SyncType>`: none comes first. -/
def eventRank : Option SyncType → ℕ
  | none => 0
  | some ty => ty.waitEvent + 1

/-! ### The timers -/

/-- The timers of the system. -/
inductive Timer
  | cfs
  | wait
  | rt (thread : Tid)
  deriving DecidableEq, Repr

/-- The addresses of the timers; no two timers share one. -/
structure Layout where
  addr : Timer → Addr
  injective : Function.Injective addr

/-- The statics of `src/ktimer.rs`, with the timers and the two fields of an RT thread that only
that file uses: `RtThread::runtime` and `RtKTimer::miss_cnt`. -/
structure KTimers where
  layout : Layout
  entity : Timer → KTimerEntity
  active : List Timer
  inactive : List Timer
  nowTicks : ℕ
  next : Option Timer
  runtime : Tid → ℕ
  missCnt : Tid → ℕ

instance neZeroRegister : NeZero (2 ^ 32) := ⟨by decide⟩

/-- The registers of the scheduler timer as one step reads them. -/
structure TimerPort where
  reload : Option (Fin (2 ^ 32))
  current : Option (Fin (2 ^ 32))
  deriving DecidableEq

/-! ### The run queue and the wait queue -/

/-- `SchedEntity`. -/
structure SchedEntity where
  schedTickCnt : ℕ
  vruntime : ℕ
  priority : ℕ
  deriving DecidableEq, Repr

/-- The statics of `src/runq.rs`, with the entities of the CFS threads. -/
structure RunQueue where
  tree : List Tid
  prioritySum : ℕ
  entity : Tid → SchedEntity

/-- `WaitEntity`. -/
structure WaitEntity where
  wakeAt : ℕ
  waitevt : Option SyncType
  deriving DecidableEq, Repr

/-- The statics of `src/waitq.rs`, with the wait entities of the threads. -/
structure WaitQueue where
  tree : List Tid
  suspended : List Tid
  entity : Tid → WaitEntity

/-- The synchronization objects a thread can wait on; a message queue has two waiter trees. -/
inductive WaitObject
  | binarySemaphore (i : ℕ)
  | countingSemaphore (i : ℕ)
  | mutex (i : ℕ)
  | messageQueueSend (i : ℕ)
  | messageQueueReceive (i : ℕ)
  deriving DecidableEq, Repr

/-- The event tag of the waiters of an object. -/
def WaitObject.syncType : WaitObject → SyncType
  | binarySemaphore _ => .binarySemaphore
  | countingSemaphore _ => .countingSemaphore
  | mutex _ => .mutex
  | messageQueueSend _ => .messageQueueSend
  | messageQueueReceive _ => .messageQueueReceive

/-! ### The scheduler -/

/-- The state of the scheduler.  `spawned` lists the initialized thread control blocks,
`deadlineAt` is the key of each thread's `SyncEntity`, and `pendsv` tells whether a context switch
has been requested and not been made. -/
structure Sched where
  ktimers : KTimers
  runq : RunQueue
  waitq : WaitQueue
  spawned : List Tid
  kind : Tid → ThreadKind
  state : Tid → ThreadState
  waiters : WaitObject → List Tid
  deadlineAt : Tid → ℕ
  current : Option Tid
  currentIsCfs : Bool
  idle : Option Tid
  started : Bool
  pendsv : Bool

end Rtsched

import Rtsched.Kernel.State

/-!
The functions of `src/ktimer.rs` that work on the timers alone.

`refreshNextKtimer` re-arms at most one expired active timer before it chooses the next one;
`yieldKtimer` leaves the chosen timer to its callers.
-/

namespace Rtsched

open Ordered Outcome

namespace KTimers

/-- `KTimerEntity::cmp`. -/
def cmp (q : KTimers) : Timer → Timer → Ordering :=
  keyCmp (fun k => (q.entity k).expireAt) q.layout.addr

instance (q : KTimers) : Std.TransCmp q.cmp := inferInstanceAs (Std.TransCmp (keyCmp _ _))

instance (q : KTimers) : Std.LawfulEqCmp q.cmp := lawfulEqCmp_keyCmp _ q.layout.injective

/-- Assign a timer entity. -/
def setEntity (q : KTimers) (k : Timer) (e : KTimerEntity) : KTimers :=
  { q with entity := Function.update q.entity k e }

/-- Assign the runtime counter of an RT thread. -/
def setRuntime (q : KTimers) (t : Tid) (n : ℕ) : KTimers :=
  { q with runtime := Function.update q.runtime t n }

/-! ### The queue -/

/-- `KTimerQueue::contains`. -/
def contains (q : KTimers) (k : Timer) : Bool := decide (k ∈ q.active) || decide (k ∈ q.inactive)

/-- `KTimerQueue::first_active`, the cached minimum. -/
def firstActive (q : KTimers) : Option Timer := q.active.head?

/-- `KTimerQueue::first`. -/
def first (q : KTimers) : Option Timer :=
  match q.active.head?, q.inactive.head? with
  | none, b => b
  | some a, none => some a
  | some a, some b => if q.cmp a b = .lt then some a else some b

/-- `KTimerQueue::insert`. -/
def insert (q : KTimers) (k : Timer) (active : Bool) : Except Fault KTimers :=
  if q.contains k then .error .alreadyLinked
  else if active then do
    let l ← link q.cmp k q.active
    .ok ({ q with active := l }.setEntity k { q.entity k with active := true })
  else do
    let l ← link q.cmp k q.inactive
    .ok ({ q with inactive := l }.setEntity k { q.entity k with active := false })

def enqueueActive (q : KTimers) (k : Timer) : Except Fault KTimers := q.insert k true

def enqueueInactive (q : KTimers) (k : Timer) : Except Fault KTimers := q.insert k false

/-- `KTimerQueue::remove`: the tree is chosen by the active flag. -/
def remove (q : KTimers) (k : Timer) : Except Fault KTimers :=
  if (q.entity k).active then do
    let l ← unlink k q.active
    .ok { q with active := l }
  else do
    let l ← unlink k q.inactive
    .ok { q with inactive := l }

/-- `KTimerQueue::dequeue`. -/
def dequeue (q : KTimers) (k : Timer) : Except Fault KTimers := do
  let q ← q.remove k
  .ok (q.setEntity k { q.entity k with active := false })

/-- `KTimerQueue::advance_time`, also `advance_ktimers`. -/
def advanceTime (q : KTimers) (elapsed : ℕ) : KTimers :=
  { q with nowTicks := satAdd64 q.nowTicks elapsed }

/-- Whether a timer is expired at the queue's time. -/
def expired (q : KTimers) (k : Timer) : Bool := (q.entity k).isExpiredAt q.nowTicks

/-! ### Choosing the next timer -/

/-- `is_real_rt_deadline_miss`. -/
def isRealRtDeadlineMiss (q : KTimers) (t : Tid) : Bool :=
  (q.entity (.rt t)).relativeDeadlineTicks < q.runtime t

/-- `record_rt_budget_overrun`. -/
def recordRtBudgetOverrun (q : KTimers) (t : Tid) : KTimers :=
  if (q.entity (.rt t)).budgetTicks < q.runtime t then
    { q with missCnt := Function.update q.missCnt t (satAdd32 (q.missCnt t) 1) }
  else q

/-- Start a new job of an RT thread now: its runtime is reset and its timer expires at the
relative deadline. -/
def rearmRt (q : KTimers) (t : Tid) : KTimers :=
  (q.setRuntime t 0).setEntity (.rt t)
    ((q.entity (.rt t)).setExpireAfter q.nowTicks (q.entity (.rt t)).relativeDeadlineTicks)

/-- The new expiration of an expired active timer in `refresh_next_ktimer`.  The wait timer would
fail the assertion of `container_of`. -/
def rearmActive (q : KTimers) (k : Timer) : Except Fault KTimers :=
  match k with
  | .cfs => .ok (q.setEntity .cfs
      ((q.entity .cfs).setExpireAfter q.nowTicks (q.entity .cfs).periodTicks))
  | .wait => .error .badPointer
  | .rt t => if q.isRealRtDeadlineMiss t then .error .deadlineMiss else .ok (q.rearmRt t)

/-- `refresh_next_ktimer`. -/
def refreshNextKtimer (q : KTimers) : Except Fault KTimers :=
  match q.firstActive with
  | none => .ok { q with next := none }
  | some k =>
      if q.expired k then do
        let q ← q.remove k
        let q ← q.rearmActive k
        let q ← q.enqueueActive k
        .ok { q with next := q.firstActive }
      else .ok { q with next := some k }

/-- `update_next_ktimer`. -/
def updateNextKtimer (q : KTimers) (k : Option Timer) : KTimers := { q with next := k }

/-- `enqueue_ktimer` and `reinsert_ktimer`, which agree on a timer that is not null. -/
def enqueueKtimer (q : KTimers) (k : Timer) : Except Fault KTimers := do
  let q ← q.enqueueActive k
  q.refreshNextKtimer

/-- `remove_ktimer`. -/
def removeKtimer (q : KTimers) (k : Timer) : Except Fault KTimers := do
  let q ← q.dequeue k
  if q.next = some k then q.refreshNextKtimer else .ok q

/-- The expiration `program_wait_ktimer` and `update_wait_ktimer_deadline` give the wait timer,
from the earliest wake-up time. -/
def waitExpireAt (firstWait : Option ℕ) : ℕ := firstWait.getD ktimerExpireNever

/-- `program_wait_ktimer`, given the earliest wake-up time of the timeout tree. -/
def programWaitKtimer (q : KTimers) (firstWait : Option ℕ) : Except Fault KTimers := do
  let expireAt := waitExpireAt firstWait
  let q ← (if (q.entity .wait).expireAt ≠ expireAt then do
      let q ← q.remove .wait
      (q.setEntity .wait ((q.entity .wait).setExpireAt expireAt)).enqueueInactive .wait
    else .ok q)
  q.refreshNextKtimer

/-! ### Yielding -/

/-- The charge and the new expiration of a timer that yields `elapsed` ticks after the queue's
time. -/
def yieldCharge (q : KTimers) (k : Timer) (elapsed : ℕ) (resetRuntime : Bool) :
    Except Fault KTimers :=
  let now := satAdd64 q.nowTicks elapsed
  match k with
  | .cfs => .ok (q.setEntity .cfs
      ((q.entity .cfs).setExpireAfter now ((q.entity .cfs).periodTicks - elapsed)))
  | .wait => .error .badPointer
  | .rt t =>
      let q := q.setRuntime t (satAdd32 (q.runtime t) elapsed)
      let q := q.recordRtBudgetOverrun t
      let q := q.setEntity (.rt t)
        ((q.entity (.rt t)).setExpireAfter now ((q.entity (.rt t)).periodTicks - q.runtime t))
      .ok (if resetRuntime then q.setRuntime t 0 else q)

/-- `yield_ktimer`; its result is the first active timer of the new queue. -/
def yieldKtimer (q : KTimers) (k : Timer) (elapsed : ℕ) (resetRuntime : Bool) :
    Except Fault KTimers := do
  let q ← q.remove k
  let q ← q.yieldCharge k elapsed resetRuntime
  (q.advanceTime elapsed).enqueueInactive k

/-! ### Deadlines of threads -/

/-- `earliest_queued_scheduler_expire_at`: the walk along `next` from `first` stops at the first
timer that is not the wait timer. -/
def earliestQueuedSchedulerExpireAt (q : KTimers) : ℕ :=
  match (merged q.cmp q.active q.inactive).find? (· ≠ .wait) with
  | none => ktimerExpireNever
  | some k => (q.entity k).expireAt

/-- `set_thread_scheduler_expire_at` for a thread whose timer is `k`. -/
def setSchedulerExpireAt (q : KTimers) (k : Timer) (expireAt : ℕ) : Except Fault KTimers :=
  let wasActive := (q.entity k).active
  if q.contains k then do
    let q ← q.remove k
    let q := q.setEntity k ((q.entity k).setExpireAt expireAt)
    let q ← q.insert k wasActive
    q.refreshNextKtimer
  else
    let q := q.setEntity k ((q.entity k).setExpireAt expireAt)
    if q.next = some k then q.refreshNextKtimer else .ok q

/-! ### The hardware timer -/

/-- `reload_from_ticks`. -/
def reloadFromTicks (ticks : ℕ) : Option ℕ :=
  if ticks = 0 then none
  else if ticks - 1 ≤ schedulerTimerReloadMax then some (ticks - 1)
  else none

/-- `writable_reload`. -/
def writableReload (reload : ℕ) : ℕ :=
  min (max reload schedulerTimerReloadMin) schedulerTimerReloadMax

/-- `programmable_reload_from_ticks`. -/
def programmableReloadFromTicks (ticks : ℕ) : ℕ :=
  writableReload ((reloadFromTicks ticks).getD (if ticks = 0 then 0 else schedulerTimerReloadMax))

/-- `scheduler_timer_reload_for_entity`. -/
def schedulerTimerReloadForEntity (q : KTimers) (k : Option Timer) : Option ℕ :=
  match k with
  | none => none
  | some .cfs =>
      some (programmableReloadFromTicks
        (min ((q.entity .cfs).remainingAt q.nowTicks) (q.entity .cfs).relativeDeadlineTicks))
  | some k =>
      some (writableReload (min ((q.entity k).expireAt - q.nowTicks - 1) schedulerTimerReloadMax))

/-- `next_ktimer_reload`, also the value `program_next_scheduler_timer` writes. -/
def nextKtimerReload (q : KTimers) : Option ℕ := q.schedulerTimerReloadForEntity q.first

/-- `elapsed_ticks_since_last_interrupt`. -/
def elapsedTicksSinceLastInterrupt (q : KTimers) (port : TimerPort) : ℕ :=
  match port.reload with
  | some reload => satAdd32 reload 1
  | none =>
      match q.nextKtimerReload with
      | some reload => satAdd32 reload 1
      | none => 0

end KTimers

/-- `elapsed_ticks_since_current_reload`. -/
def TimerPort.elapsedTicksSinceCurrentReload (port : TimerPort) : ℕ :=
  match port.reload, port.current with
  | some reload, some current => (reload : ℕ) - (current : ℕ)
  | _, _ => 0

end Rtsched

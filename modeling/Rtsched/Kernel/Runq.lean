import Rtsched.Kernel.State

/-!
The functions of `src/runq.rs` that work on the CFS run queue alone.

The rebuild of `enqueue_runq_from_waitq` pops every queued entity, rewrites its `sched_tick_cnt`
and inserts it into a fresh tree.
-/

namespace Rtsched

open Ordered Outcome

/-- `cfs_vruntime_delta`, on `u64` values. -/
def cfsVruntimeDelta (elapsedTicks priority prioritySum : ℕ) : Except Fault ℕ :=
  if priority = 0 then .error .arithmetic
  else if prioritySum = 0 then .ok 0
  else if u64Max < elapsedTicks * priority then .error .arithmetic
  else .ok (elapsedTicks * priority / prioritySum)

/-- `cfs_sched_ticks_from_vruntime`, on `u64` values. -/
def cfsSchedTicksFromVruntime (vruntime priority prioritySum : ℕ) : Except Fault ℕ :=
  if priority = 0 then .error .arithmetic
  else if prioritySum = 0 then .ok 0
  else if u64Max < vruntime * prioritySum then .error .arithmetic
  else .ok (vruntime * prioritySum / priority)

namespace RunQueue

/-- `SchedEntity::cmp`. -/
def cmp (r : RunQueue) : Tid → Tid → Ordering := keyCmp (fun t => (r.entity t).vruntime) id

instance (r : RunQueue) : Std.TransCmp r.cmp := inferInstanceAs (Std.TransCmp (keyCmp _ _))

instance (r : RunQueue) : Std.LawfulEqCmp r.cmp := lawfulEqCmp_keyCmp _ Function.injective_id

def setEntity (r : RunQueue) (t : Tid) (e : SchedEntity) : RunQueue :=
  { r with entity := Function.update r.entity t e }

/-- `RBTree::insert` on the run queue. -/
def insert (r : RunQueue) (t : Tid) : Except Fault RunQueue := do
  let l ← link r.cmp t r.tree
  .ok { r with tree := l }

/-- `RBTree::remove` on the run queue. -/
def remove (r : RunQueue) (t : Tid) : Except Fault RunQueue := do
  let l ← unlink t r.tree
  .ok { r with tree := l }

/-- `update_from_leftmost`. -/
def updateFromLeftmost (r : RunQueue) (t : Tid) : Except Fault RunQueue :=
  match r.tree.head? with
  | none => .ok r
  | some leftmost => do
      let vruntime := (r.entity leftmost).vruntime
      let ticks ← cfsSchedTicksFromVruntime vruntime (r.entity t).priority r.prioritySum
      .ok (r.setEntity t { r.entity t with vruntime := vruntime, schedTickCnt := ticks })

/-- The run queue part of `enqueue_thread`. -/
def enqueueThread (r : RunQueue) (t : Tid) : Except Fault RunQueue :=
  if t ∈ r.tree then .error .alreadyLinked
  else do
    let r ← r.updateFromLeftmost t
    let r ← r.insert t
    if u32Max < r.prioritySum + (r.entity t).priority then .error .arithmetic
    else .ok { r with prioritySum := r.prioritySum + (r.entity t).priority }

/-- The loop of `enqueue_runq_from_waitq`: the popped entities, in order, go to a new tree. -/
def rebuild (r : RunQueue) : List Tid → Except Fault RunQueue
  | [] => .ok r
  | t :: popped => do
      let ticks ← cfsSchedTicksFromVruntime (r.entity t).vruntime (r.entity t).priority
        r.prioritySum
      let r := r.setEntity t { r.entity t with schedTickCnt := ticks }
      let r ← r.insert t
      rebuild r popped

/-- The run queue part of `enqueue_runq_from_waitq`. -/
def enqueueFromWaitq (r : RunQueue) (t : Tid) : Except Fault RunQueue :=
  if t ∈ r.tree then .error .alreadyLinked
  else do
    let r := { r with prioritySum := satAdd32 r.prioritySum (r.entity t).priority }
    let r ← rebuild { r with tree := [] } r.tree
    let r ← r.updateFromLeftmost t
    r.insert t

/-- The last part of `dequeue_runq_to_waitq`. -/
def dropPriority (r : RunQueue) (t : Tid) : RunQueue :=
  { r with prioritySum := r.prioritySum - (r.entity t).priority }

/-- The charge of `schedule` to the running CFS thread. -/
def charge (r : RunQueue) (t : Tid) (elapsed : ℕ) : Except Fault RunQueue :=
  if r.prioritySum = 0 then .ok r
  else do
    let e := r.entity t
    let delta ← cfsVruntimeDelta elapsed e.priority r.prioritySum
    if u64Max < e.vruntime + delta ∨ u64Max < e.schedTickCnt + elapsed then .error .arithmetic
    else .ok (r.setEntity t
      { e with vruntime := e.vruntime + delta, schedTickCnt := e.schedTickCnt + elapsed })

end RunQueue

end Rtsched

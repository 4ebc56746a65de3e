import Rtsched.Kernel.Sync

/-!
The operations of `MessageQueue` in `src/message.rs`.

`send` and `receive` are loops whose body is one critical section.  A body that parks its thread
leaves the call pending, and `retry` is the next turn of the loop; `can_block` has been read
before the first turn.
-/

namespace Rtsched

namespace Kernel

variable {α : Type} (k : Kernel α)

def setQueue (i : ℕ) (r : Ring α) : Kernel α := { k with queue := Function.update k.queue i r }

def setCall (t : Tid) (c : Option (Call α)) : Kernel α :=
  { k with call := Function.update k.call t c }

/-- `MessageQueue::try_send`. -/
def trySend (i : ℕ) (x : α) : Except Fault (Kernel α × Reply α) := do
  let pushed ← (k.queue i).pushBack x
  match pushed with
  | none => .ok (k, .err .full)
  | some r => do
      let (s, _) ← k.sched.wakeFirst (.messageQueueReceive i)
      .ok (setQueue { k with sched := s } i r, .done)

/-- `MessageQueue::try_receive`. -/
def tryReceive (i : ℕ) : Except Fault (Kernel α × Reply α) := do
  let popped ← (k.queue i).popFront
  match popped with
  | none => .ok (k, .err .empty)
  | some (x, r) => do
      let (s, _) ← k.sched.wakeFirst (.messageQueueSend i)
      .ok (setQueue { k with sched := s } i r, .message x)

/-- `MessageQueue::block`, which leaves the call pending when it parks the thread. -/
def block (o : WaitObject) (call : Call α) (canBlock : Bool) (port : TimerPort) :
    Except Fault (Kernel α × Reply α) :=
  match k.sched.current with
  | none => .ok (k, .err .noCurrentThread)
  | some t =>
      if !canBlock || k.sched.state t ≠ .running || k.sched.kind t = .idle then
        .ok (k, .err .invalidContext)
      else do
        let (k, blocked) ← k.blockOn o t port
        if blocked.isSome then .ok (k.setCall t (some call), .blocked)
        else .ok (k, .err .waitQueueNotFound)

/-- One turn of `send_with_wait`. -/
def send (i : ℕ) (x : α) (canBlock : Bool) (port : TimerPort) :
    Except Fault (Kernel α × Reply α) := do
  let (k', reply) ← k.trySend i x
  match reply with
  | .err .full => k'.block (.messageQueueSend i) (.send i x) canBlock port
  | reply => .ok (k', reply)

/-- One turn of `receive_with_wait`. -/
def receive (i : ℕ) (canBlock : Bool) (port : TimerPort) :
    Except Fault (Kernel α × Reply α) := do
  let (k', reply) ← k.tryReceive i
  match reply with
  | .err .empty => k'.block (.messageQueueReceive i) (.receive i) canBlock port
  | reply => .ok (k', reply)

/-- The next turn of the call that the current thread is in. -/
def retry (port : TimerPort) : Except Fault (Kernel α × Reply α) :=
  match k.sched.current with
  | none => .error .badPointer
  | some t =>
      match k.call t with
      | none => .error .badPointer
      | some (.send i x) => (k.setCall t none).send i x true port
      | some (.receive i) => (k.setCall t none).receive i true port

end Kernel

end Rtsched

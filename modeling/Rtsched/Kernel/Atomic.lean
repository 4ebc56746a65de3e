import Rtsched.Kernel.Record
import Rtsched.Kernel.RtSpec

/-!
The synchronization operations with every early return.

Here a function that returns an error hands back the state as it is at that return, after whatever
it has changed before.  The timer of an RT thread is reached through the pointer of the thread,
which is null until the thread is spawned.

* `Stepwise.exec`: the operations, return by return.
* `Stepwise.exec_eq`: with the pointers that spawning sets, the operations are those of the model.
* `Kernel.errors_atomic`: **an operation that returns an error leaves everything as it was**.
-/

namespace Rtsched

open Outcome

/-- What a fallible function hands back: the state at its return, and its value, or none for
`WaitQueueError::NotFound`. -/
abbrev Return (β : Type) := Sched × Option β

/-- A value of the model's functions, which hand back no state with an error. -/
def Return.ofOption {β : Type} (s : Sched) : Option (Sched × β) → Return β
  | none => (s, none)
  | some (s', b) => (s', some b)

namespace Stepwise

variable {α : Type} (ktimerEntity : Tid → Option Timer) (s : Sched)

/-! ### The wait queue -/

/-- `yield_ktimer`, which leaves the queue alone for a null timer. -/
def yieldKtimer (q : KTimers) (k : Option Timer) (elapsed : ℕ) (resetRuntime : Bool) :
    Except Fault KTimers :=
  match k with
  | none => .ok q
  | some k => q.yieldKtimer k elapsed resetRuntime

/-- `dequeue_ktimerq_to_waitq`. -/
def dequeueKtimerqToWaitq (t : Tid) : Except Fault (Return Unit) :=
  if s.kind t ≠ .rt then .ok (s, none)
  else
    match ktimerEntity t with
    | none => .ok (s, none)
    | some k => do
        let q ← s.ktimers.removeKtimer k
        let s ← Sched.insertWaitThread { s with ktimers := q } t
        let s ← s.programWaitKtimer
        .ok (s, some ())

/-- `enqueue_ktimerq_from_waitq`. -/
def enqueueKtimerqFromWaitq (t : Tid) : Except Fault (Return Unit) :=
  if s.kind t ≠ .rt then .ok (s, none)
  else
    match ktimerEntity t with
    | none => .ok (s, none)
    | some k => do
        let s ← s.removeWaitThread t
        let s ← s.setState t .ready
        let q ← s.ktimers.enqueueKtimer k
        let s ← Sched.programWaitKtimer { s with ktimers := q }
        .ok (s, some ())

/-- `block_current_thread`: the clock is advanced, the timer parked and the wait entity written
before the move to the wait queue, which can fail. -/
def blockCurrentThread (t : Tid) (ty : SyncType) (port : TimerPort) :
    Except Fault (Return ℕ) :=
  if s.current ≠ some t then .error .badPointer
  else if s.kind t = .idle then .ok (s, none)
  else do
    let currentKtimer := if s.kind t = .cfs then some .cfs else ktimerEntity t
    let deadlineAt := currentKtimer.elim u64Max fun k => (s.ktimers.entity k).expireAt
    let q ← yieldKtimer s.ktimers currentKtimer port.elapsedTicksSinceCurrentReload false
    let s := Sched.setWaitEntity { s with ktimers := q } t ⟨u64Max, some ty⟩
    match s.kind t with
    | .cfs => do
        let s ← s.dequeueRunqToWaitq t
        .ok (s, some deadlineAt)
    | .rt => do
        let (s, moved) ← dequeueKtimerqToWaitq ktimerEntity s t
        .ok (s, moved.map fun _ => deadlineAt)
    | .idle => .ok (s, none)

/-- `block_current_thread_on`, also the end of a message queue's `block`. -/
def blockCurrentThreadOn (o : WaitObject) (t : Tid) (port : TimerPort) :
    Except Fault (Return ℕ) := do
  let (s, blocked) ← blockCurrentThread ktimerEntity s t o.syncType port
  match blocked with
  | none => .ok (s, none)
  | some deadlineAt => do
      let s ← s.insertSyncWaiter o t deadlineAt
      .ok (s.requestContextSwitch, some deadlineAt)

/-- `pop_waiting_thread` without its assertion: a thread that is not blocked has been popped when
none is returned. -/
def popWaitingThread (o : WaitObject) : Return Tid :=
  match s.waiters o with
  | [] => (s, none)
  | t :: l =>
      let s' := { s with waiters := Function.update s.waiters o l }
      if (s.state t).isBlocked then (s', some t) else (s', none)

/-- `wake_waiter`. -/
def wakeWaiter (t : Tid) : Except Fault (Return Unit) :=
  match s.kind t with
  | .cfs => do
      let s ← s.removeWaitThread t
      let s ← s.enqueueRunqFromWaitq t
      let s ← s.programWaitKtimer
      .ok (s, some ())
  | .rt => enqueueKtimerqFromWaitq ktimerEntity s t
  | .idle => .ok (s, some ())

/-- `MessageQueue::wake`, which expects the waiter to be valid. -/
def wake (waiter : Option Tid) : Except Fault Sched :=
  match waiter with
  | none => .ok s
  | some t => do
      let (s, woken) ← wakeWaiter ktimerEntity s t
      if woken.isSome then .ok s.requestContextSwitch else .error .badPointer

/-! ### The operations -/

variable (k : Kernel α)

/-- `take` of both semaphores. -/
def take (i : SemaphoreId) (port : TimerPort) : Except Fault (Kernel α × Reply α) :=
  if 0 < k.word i then .ok (k.setWord i (k.word i - 1), .done)
  else
    match k.sched.current with
    | none => .ok (k, .err .noCurrentThread)
    | some t => do
        let (s, blocked) ← blockCurrentThreadOn ktimerEntity k.sched i.object t port
        .ok ({ k with sched := s }, if blocked.isSome then .blocked else .err .waitQueueNotFound)

/-- `give` of both semaphores: the waiter is popped before it is woken, which can fail. -/
def give (i : SemaphoreId) : Except Fault (Kernel α × Reply α) :=
  let (s, waiter) := popWaitingThread k.sched i.object
  let k := { k with sched := s }
  match waiter with
  | some t => do
      let (s, woken) ← wakeWaiter ktimerEntity s t
      if woken.isSome then .ok ({ k with sched := s.requestContextSwitch }, .done)
      else .ok ({ k with sched := s }, .err .waitQueueNotFound)
  | none =>
      if k.word i < k.limit i then .ok (k.setWord i (k.word i + 1), .done)
      else .ok (k, .err .full)

/-- `Mutex::lock`. -/
def lock (i : ℕ) (port : TimerPort) : Except Fault (Kernel α × Reply α) :=
  match k.sched.current, (k.mutex i).owner with
  | none, _ => .ok (k, .err .noCurrentThread)
  | some t, none => .ok (k.setMutex i { k.mutex i with owner := some t }, .done)
  | some t, some owner =>
      if owner = t then .ok (k, .err .wouldDeadlock)
      else do
        let (s, blocked) ← blockCurrentThreadOn ktimerEntity k.sched (.mutex i) t port
        let k := { k with sched := s }
        match blocked with
        | none => .ok (k, .err .waitQueueNotFound)
        | some deadlineAt => do
            let k ← k.boostOwnerDeadline i owner t deadlineAt
            .ok (k, .blocked)

/-- `MessageQueue::try_send`. -/
def trySend (i : ℕ) (x : α) : Except Fault (Kernel α × Reply α) := do
  let pushed ← (k.queue i).pushBack x
  match pushed with
  | none => .ok (k, .err .full)
  | some r => do
      let k := k.setQueue i r
      let (s, waiter) := popWaitingThread k.sched (.messageQueueReceive i)
      let s ← wake ktimerEntity s waiter
      .ok ({ k with sched := s }, .done)

/-- `MessageQueue::try_receive`. -/
def tryReceive (i : ℕ) : Except Fault (Kernel α × Reply α) := do
  let popped ← (k.queue i).popFront
  match popped with
  | none => .ok (k, .err .empty)
  | some (x, r) => do
      let k := k.setQueue i r
      let (s, waiter) := popWaitingThread k.sched (.messageQueueSend i)
      let s ← wake ktimerEntity s waiter
      .ok ({ k with sched := s }, .message x)

/-- `MessageQueue::block`. -/
def block (o : WaitObject) (call : Call α) (canBlock : Bool) (port : TimerPort) :
    Except Fault (Kernel α × Reply α) :=
  match k.sched.current with
  | none => .ok (k, .err .noCurrentThread)
  | some t =>
      if !canBlock || k.sched.state t ≠ .running || k.sched.kind t = .idle then
        .ok (k, .err .invalidContext)
      else do
        let (s, blocked) ← blockCurrentThreadOn ktimerEntity k.sched o t port
        let k := { k with sched := s }
        if blocked.isSome then .ok (k.setCall t (some call), .blocked)
        else .ok (k, .err .waitQueueNotFound)

/-- The first turn of `send_with_wait`. -/
def send (i : ℕ) (x : α) (canBlock : Bool) (port : TimerPort) :
    Except Fault (Kernel α × Reply α) := do
  let (k, reply) ← trySend ktimerEntity k i x
  match reply with
  | .err .full => block ktimerEntity k (.messageQueueSend i) (.send i x) canBlock port
  | reply => .ok (k, reply)

/-- The first turn of `receive_with_wait`. -/
def receive (i : ℕ) (canBlock : Bool) (port : TimerPort) :
    Except Fault (Kernel α × Reply α) := do
  let (k, reply) ← tryReceive ktimerEntity k i
  match reply with
  | .err .empty => block ktimerEntity k (.messageQueueReceive i) (.receive i) canBlock port
  | reply => .ok (k, reply)

/-- The first attempt of an operation; the other steps of the kernel return no error. -/
def exec : Event α → Except Fault (Kernel α × Reply α)
  | .tryTake i => .ok (k.tryTake i)
  | .take i port => take ktimerEntity k i port
  | .give i => give ktimerEntity k i
  | .tryLock i => .ok (k.tryLock i)
  | .lock i port => lock ktimerEntity k i port
  | .trySend i x => trySend ktimerEntity k i x
  | .tryReceive i => tryReceive ktimerEntity k i
  | .send i x canBlock port => send ktimerEntity k i x canBlock port
  | .receive i canBlock port => receive ktimerEntity k i canBlock port
  | ev => k.exec ev

/-! ### With the pointers of spawned threads -/

/-- The timer of every RT thread is reached through its pointer. -/
def Points (ktimerEntity : Tid → Option Timer) (s : Sched) : Prop :=
  ∀ t, s.kind t = .rt → ktimerEntity t = some (.rt t)

variable {ktimerEntity} {s} {k} {t : Tid}

/-- The move of an RT thread to the wait queue does not fail. -/
lemma dequeueKtimerqToWaitq_eq (h : Points ktimerEntity s) (ht : s.kind t = .rt) :
    dequeueKtimerqToWaitq ktimerEntity s t =
      s.dequeueKtimerqToWaitq t >>= fun s' => .ok (s', some ()) := by
  simp only [dequeueKtimerqToWaitq, Sched.dequeueKtimerqToWaitq, ht, h t ht, ne_eq,
    not_true_eq_false, if_false, bind_assoc]

/-- The move of an RT thread back to its queue does not fail. -/
lemma enqueueKtimerqFromWaitq_eq (h : Points ktimerEntity s) (ht : s.kind t = .rt) :
    enqueueKtimerqFromWaitq ktimerEntity s t =
      s.enqueueKtimerqFromWaitq t >>= fun s' => .ok (s', some ()) := by
  simp only [enqueueKtimerqFromWaitq, Sched.enqueueKtimerqFromWaitq, ht, h t ht, ne_eq,
    not_true_eq_false, if_false, bind_assoc]

/-- The one error of `block_current_thread` is that for the idle thread, before any change. -/
lemma blockCurrentThread_eq (h : Points ktimerEntity s) (ty : SyncType) (port : TimerPort) :
    blockCurrentThread ktimerEntity s t ty port =
      s.blockCurrentThread t ty port >>= fun r => .ok (.ofOption s r) := by
  unfold blockCurrentThread Sched.blockCurrentThread
  split
  · rfl
  · cases hkind : s.kind t with
    | idle => simp [Sched.threadSchedulerKtimer, hkind, Return.ofOption]
    | cfs =>
        have hkind' : ∀ q e, (Sched.setWaitEntity { s with ktimers := q } t e).kind t = .cfs :=
          fun _ _ => hkind
        simp only [Sched.threadSchedulerKtimer, hkind, hkind', yieldKtimer, Option.elim_some,
          reduceCtorEq, if_true, if_false, bind_assoc, Return.ofOption, ok_bind]
    | rt =>
        have hkind' : ∀ q e, (Sched.setWaitEntity { s with ktimers := q } t e).kind t = .rt :=
          fun _ _ => hkind
        have hmove : ∀ q e,
            dequeueKtimerqToWaitq ktimerEntity (Sched.setWaitEntity { s with ktimers := q } t e) t =
              (Sched.setWaitEntity { s with ktimers := q } t e).dequeueKtimerqToWaitq t >>=
                fun s' => .ok (s', some ()) :=
          fun q e => dequeueKtimerqToWaitq_eq (fun u hu => h u hu) (hkind' q e)
        simp only [Sched.threadSchedulerKtimer, hkind, hkind', h t hkind, hmove, yieldKtimer,
          Option.elim_some, Option.map_some, reduceCtorEq, if_false, bind_assoc, Return.ofOption,
          ok_bind]

lemma blockCurrentThreadOn_eq (h : Points ktimerEntity s) (o : WaitObject) (port : TimerPort) :
    blockCurrentThreadOn ktimerEntity s o t port =
      s.blockCurrentThreadOn o t port >>= fun r => .ok (.ofOption s r) := by
  rw [blockCurrentThreadOn, Sched.blockCurrentThreadOn, blockCurrentThread_eq h]
  simp only [bind_assoc, ok_bind]
  refine congrArg _ (funext fun r => ?_)
  cases r with
  | none => rfl
  | some r => simp only [Return.ofOption, bind_assoc, ok_bind]

/-- The waiters of the objects are blocked. -/
def Waits (s : Sched) : Prop := ∀ o, ∀ t ∈ s.waiters o, (s.state t).isBlocked = true

/-- No waiter is lost when it is popped. -/
lemma popWaitingThread_eq (h : Waits s) (o : WaitObject) :
    s.popWaitingThread o = .ok (popWaitingThread s o) := by
  unfold Sched.popWaitingThread popWaitingThread
  cases ho : s.waiters o with
  | nil => rfl
  | cons t l =>
      have hblocked := h o t (by rw [ho]; exact List.mem_cons_self ..)
      simp only [hblocked, if_true]

/-- Waking a thread that is reached through its pointer does not fail. -/
lemma wakeWaiter_eq (h : Points ktimerEntity s) :
    wakeWaiter ktimerEntity s t = s.wakeWaiter t >>= fun s' => .ok (s', some ()) := by
  unfold wakeWaiter Sched.wakeWaiter
  cases hkind : s.kind t with
  | idle => rfl
  | cfs => simp only [bind_assoc]
  | rt => exact enqueueKtimerqFromWaitq_eq h hkind

lemma wake_eq (h : Points ktimerEntity s) (waiter : Option Tid) :
    wake ktimerEntity s waiter = s.wake waiter := by
  cases waiter with
  | none => rfl
  | some t => simp only [wake, Sched.wake, wakeWaiter_eq h, bind_assoc, ok_bind, Option.isSome_some,
      if_true]

/-- The threads are as they were when a waiter has been popped. -/
lemma popWaitingThread_points (h : Points ktimerEntity s) (o : WaitObject) :
    Points ktimerEntity (popWaitingThread s o).1 := by
  unfold popWaitingThread
  split
  · exact h
  · simp only
    split <;> exact h

/-- Popping and waking the first waiter of an object. -/
lemma wakeFirst_eq (h : Points ktimerEntity s) (hw : Waits s) (o : WaitObject) :
    s.wakeFirst o = wake ktimerEntity (popWaitingThread s o).1 (popWaitingThread s o).2 >>=
      fun s' => .ok (s', (popWaitingThread s o).2) := by
  rw [Sched.wakeFirst, popWaitingThread_eq hw, ok_bind, wake_eq (popWaitingThread_points h o)]

lemma take_eq (h : Points ktimerEntity k.sched) (i : SemaphoreId) (port : TimerPort) :
    take ktimerEntity k i port = k.take i port := by
  unfold take Kernel.take
  split
  · rfl
  · cases k.sched.current with
    | none => rfl
    | some t =>
        simp only [Kernel.blockOn, blockCurrentThreadOn_eq h, bind_assoc, ok_bind]
        refine congrArg _ (funext fun r => ?_)
        cases r <;> rfl

lemma give_eq (h : Points ktimerEntity k.sched) (hw : Waits k.sched) (i : SemaphoreId) :
    give ktimerEntity k i = k.give i := by
  rw [give, Kernel.give, wakeFirst_eq h hw]
  have hpop := popWaitingThread_points h i.object
  generalize popWaitingThread k.sched i.object = r at hpop
  obtain ⟨s, waiter⟩ := r
  cases waiter with
  | none => rfl
  | some t =>
      simp only [wake, wakeWaiter_eq hpop, bind_assoc, ok_bind, Option.isSome_some, if_true]

lemma lock_eq (h : Points ktimerEntity k.sched) (i : ℕ) (port : TimerPort) :
    lock ktimerEntity k i port = k.lock i port := by
  unfold lock Kernel.lock
  cases k.sched.current with
  | none => rfl
  | some t =>
      cases (k.mutex i).owner with
      | none => rfl
      | some owner =>
          simp only
          split
          · rfl
          · simp only [Kernel.blockOn, blockCurrentThreadOn_eq h, bind_assoc, ok_bind]
            refine congrArg _ (funext fun r => ?_)
            cases r <;> rfl

lemma trySend_eq (h : Points ktimerEntity k.sched) (hw : Waits k.sched) (i : ℕ) (x : α) :
    trySend ktimerEntity k i x = k.trySend i x := by
  unfold trySend Kernel.trySend
  refine congrArg _ (funext fun pushed => ?_)
  cases pushed with
  | none => rfl
  | some r => simp only [wakeFirst_eq h hw, Kernel.setQueue, bind_assoc, ok_bind]

lemma tryReceive_eq (h : Points ktimerEntity k.sched) (hw : Waits k.sched) (i : ℕ) :
    tryReceive ktimerEntity k i = k.tryReceive i := by
  unfold tryReceive Kernel.tryReceive
  refine congrArg _ (funext fun popped => ?_)
  cases popped with
  | none => rfl
  | some r => simp only [wakeFirst_eq h hw, Kernel.setQueue, bind_assoc, ok_bind]

lemma block_eq (h : Points ktimerEntity k.sched) (o : WaitObject) (call : Call α)
    (canBlock : Bool) (port : TimerPort) :
    block ktimerEntity k o call canBlock port = k.block o call canBlock port := by
  unfold block Kernel.block
  cases k.sched.current with
  | none => rfl
  | some t =>
      simp only
      split
      · rfl
      · simp only [Kernel.blockOn, blockCurrentThreadOn_eq h, bind_assoc, ok_bind]
        refine congrArg _ (funext fun r => ?_)
        cases r <;> rfl

end Stepwise

namespace Kernel

variable {α : Type} {k k' : Kernel α} {status : Status}

/-- A turn of `send` that finds the ring full leaves the kernel alone before it blocks. -/
lemma trySend_err {i : ℕ} {x : α} (h : k.trySend i x = .ok (k', .err status)) :
    k' = k ∧ status = .full := by
  obtain ⟨pushed, -, h⟩ := bind_eq_ok.mp h
  cases pushed with
  | none =>
      obtain ⟨rfl, heq⟩ := Prod.mk.inj (Except.ok.inj h)
      exact ⟨rfl, (Reply.err.inj heq).symm⟩
  | some r =>
      obtain ⟨⟨s, waiter⟩, -, h⟩ := bind_eq_ok.mp h
      cases h

lemma tryReceive_err {i : ℕ} (h : k.tryReceive i = .ok (k', .err status)) :
    k' = k ∧ status = .empty := by
  obtain ⟨popped, -, h⟩ := bind_eq_ok.mp h
  cases popped with
  | none =>
      obtain ⟨rfl, heq⟩ := Prod.mk.inj (Except.ok.inj h)
      exact ⟨rfl, (Reply.err.inj heq).symm⟩
  | some r =>
      obtain ⟨⟨s, waiter⟩, -, h⟩ := bind_eq_ok.mp h
      cases h

end Kernel

namespace Stepwise

variable {α : Type} {ktimerEntity : Tid → Option Timer} {k : Kernel α}

lemma send_eq (h : Points ktimerEntity k.sched) (hw : Waits k.sched) (i : ℕ) (x : α)
    (canBlock : Bool) (port : TimerPort) :
    send ktimerEntity k i x canBlock port = k.send i x canBlock port := by
  rw [send, Kernel.send, trySend_eq h hw]
  cases hrun : k.trySend i x with
  | error f => rfl
  | ok r =>
      obtain ⟨k', reply⟩ := r
      cases reply with
      | err status =>
          -- the kernel is unchanged when the ring is full
          obtain ⟨rfl, rfl⟩ := Kernel.trySend_err hrun
          exact block_eq h _ _ canBlock port
      | _ => rfl

lemma receive_eq (h : Points ktimerEntity k.sched) (hw : Waits k.sched) (i : ℕ)
    (canBlock : Bool) (port : TimerPort) :
    receive ktimerEntity k i canBlock port = k.receive i canBlock port := by
  rw [receive, Kernel.receive, tryReceive_eq h hw]
  cases hrun : k.tryReceive i with
  | error f => rfl
  | ok r =>
      obtain ⟨k', reply⟩ := r
      cases reply with
      | err status =>
          obtain ⟨rfl, rfl⟩ := Kernel.tryReceive_err hrun
          exact block_eq h _ _ canBlock port
      | _ => rfl

/-- **With the pointers of spawned threads the operations are those of the model.** -/
theorem exec_eq (h : Points ktimerEntity k.sched) (hw : Waits k.sched) (ev : Event α) :
    exec ktimerEntity k ev = k.exec ev := by
  cases ev with
  | take i port => exact take_eq h i port
  | give i => exact give_eq h hw i
  | lock i port => exact lock_eq h i port
  | trySend i x => exact trySend_eq h hw i x
  | tryReceive i => exact tryReceive_eq h hw i
  | send i x canBlock port => exact send_eq h hw i x canBlock port
  | receive i canBlock port => exact receive_eq h hw i canBlock port
  | _ => rfl

end Stepwise

/-! ### Errors -/

/-- The first attempt of an operation that can return an error. -/
def Event.isAttempt {α : Type} : Event α → Bool
  | .tryTake _ | .take _ _ | .give _ | .tryLock _ | .lock _ _ | .trySend _ _ | .tryReceive _
  | .send _ _ _ _ | .receive _ _ _ => true
  | _ => false

namespace Kernel

variable {α : Type} {k k' : Kernel α} {ev : Event α} {status : Status}

/-- A call of `blockOn` that returns an error leaves the kernel alone. -/
lemma blockOn_none {o : WaitObject} {t : Tid} {port : TimerPort}
    (h : k.blockOn o t port = .ok (k', none)) : k' = k := by
  obtain ⟨blocked, -, h⟩ := bind_eq_ok.mp h
  cases blocked with
  | none => exact (Prod.mk.inj (Except.ok.inj h)).1.symm
  | some r => cases (Prod.mk.inj (Except.ok.inj h)).2

lemma take_err {i : SemaphoreId} {port : TimerPort} (h : k.take i port = .ok (k', .err status)) :
    k' = k := by
  unfold take at h
  split at h
  · cases h
  · split at h
    · exact (Prod.mk.inj (Except.ok.inj h)).1.symm
    · obtain ⟨⟨k₁, blocked⟩, hblock, h⟩ := bind_eq_ok.mp h
      obtain ⟨rfl, heq⟩ := Prod.mk.inj (Except.ok.inj h)
      cases blocked with
      | none => exact blockOn_none hblock
      | some d => cases heq

/-- An object without a waiter is left alone. -/
lemma wakeFirst_none {s s' : Sched} {o : WaitObject} (h : s.wakeFirst o = .ok (s', none)) :
    s' = s := by
  obtain ⟨⟨s₁, waiter⟩, hpop, h⟩ := bind_eq_ok.mp h
  obtain ⟨s₂, hwake, h⟩ := bind_eq_ok.mp h
  obtain ⟨rfl, rfl⟩ := Prod.mk.inj (Except.ok.inj h)
  obtain rfl := Except.ok.inj hwake
  unfold Sched.popWaitingThread at hpop
  split at hpop
  · exact (Prod.mk.inj (Except.ok.inj hpop)).1.symm
  · split at hpop
    · cases (Prod.mk.inj (Except.ok.inj hpop)).2
    · cases hpop

/-- A token that is refused has found no waiter to wake. -/
lemma give_err {i : SemaphoreId} (h : k.give i = .ok (k', .err status)) : k' = k := by
  obtain ⟨⟨s, waiter⟩, hwake, h⟩ := bind_eq_ok.mp h
  cases waiter with
  | some t => cases h
  | none =>
      obtain rfl := wakeFirst_none hwake
      simp only [Option.isSome_none, Bool.false_eq_true, if_false] at h
      split at h
      · cases h
      · exact (Prod.mk.inj (Except.ok.inj h)).1.symm

lemma lock_err {i : ℕ} {port : TimerPort} (h : k.lock i port = .ok (k', .err status)) :
    k' = k := by
  unfold lock at h
  split at h
  · exact (Prod.mk.inj (Except.ok.inj h)).1.symm
  · cases h
  · split at h
    · exact (Prod.mk.inj (Except.ok.inj h)).1.symm
    · obtain ⟨⟨k₁, blocked⟩, hblock, h⟩ := bind_eq_ok.mp h
      cases blocked with
      | none =>
          obtain ⟨rfl, -⟩ := Prod.mk.inj (Except.ok.inj h)
          exact blockOn_none hblock
      | some d =>
          obtain ⟨k₂, -, h⟩ := bind_eq_ok.mp h
          cases h

lemma block_err {o : WaitObject} {call : Call α} {canBlock : Bool} {port : TimerPort}
    (h : k.block o call canBlock port = .ok (k', .err status)) : k' = k := by
  unfold block at h
  split at h
  · exact (Prod.mk.inj (Except.ok.inj h)).1.symm
  · split at h
    · exact (Prod.mk.inj (Except.ok.inj h)).1.symm
    · obtain ⟨⟨k₁, blocked⟩, hblock, h⟩ := bind_eq_ok.mp h
      cases blocked with
      | none =>
          obtain ⟨rfl, -⟩ := Prod.mk.inj (Except.ok.inj h)
          exact blockOn_none hblock
      | some d => cases h

lemma send_err {i : ℕ} {x : α} {canBlock : Bool} {port : TimerPort}
    (h : k.send i x canBlock port = .ok (k', .err status)) : k' = k := by
  obtain ⟨⟨k₁, reply⟩, htry, h⟩ := bind_eq_ok.mp h
  cases reply with
  | err status₁ =>
      obtain ⟨rfl, rfl⟩ := trySend_err htry
      exact block_err h
  | _ => cases h

lemma receive_err {i : ℕ} {canBlock : Bool} {port : TimerPort}
    (h : k.receive i canBlock port = .ok (k', .err status)) : k' = k := by
  obtain ⟨⟨k₁, reply⟩, htry, h⟩ := bind_eq_ok.mp h
  cases reply with
  | err status₁ =>
      obtain ⟨rfl, rfl⟩ := tryReceive_err htry
      exact block_err h
  | _ => cases h

/-- **An attempt of the model that returns an error leaves the kernel alone.** -/
theorem exec_err (hev : ev.isAttempt = true) (h : k.exec ev = .ok (k', .err status)) : k' = k := by
  cases ev with
  | tryTake i =>
      replace h : k.tryTake i = (k', .err status) := Except.ok.inj h
      unfold tryTake at h
      split at h
      · cases h
      · exact (Prod.mk.inj h).1.symm
  | tryLock i =>
      replace h : k.tryLock i = (k', .err status) := Except.ok.inj h
      unfold tryLock at h
      split at h
      · exact (Prod.mk.inj h).1.symm
      · cases h
      · exact (Prod.mk.inj h).1.symm
  | take i port => exact take_err h
  | give i => exact give_err h
  | lock i port => exact lock_err h
  | trySend i x => exact (trySend_err h).1
  | tryReceive i => exact (tryReceive_err h).1
  | send i x canBlock port => exact send_err h
  | receive i canBlock port => exact receive_err h
  | _ => cases hev

end Kernel

/-! ### The pointers of a run -/

/-- A thread becomes an RT thread only by being created as one. -/
lemma Sched.Act.kind_rt {s s' : Sched} {l : Label} {t : Tid} (h : s.Inv) (ha : Act l s s')
    (ht : s'.kind t = .rt) : s.kind t = .rt ∨ l = .spawns t .rt := by
  by_cases hsp : t ∈ s.spawned
  · exact Or.inl ((ha.kind_eq hsp).symm.trans ht)
  · have hsp' : t ∈ s'.spawned := (ha.inv h).mem_spawned (by rw [ht]; decide)
    cases ha with
    | yields _ hy => exact absurd (hy.moves.control.spawned ▸ hsp') hsp
    | sleeps _ _ _ hb => exact absurd (hb.moves.control.spawned ▸ hsp') hsp
    | blocks _ hb => exact absurd (hb.moves.control.spawned ▸ hsp') hsp
    | times _ _ _ => exact absurd hsp' hsp
    | wakes _ hr => exact absurd (hr.moves.control.spawned ▸ hsp') hsp
    | sets hm _ _ => exact absurd (hm.control.spawned ▸ hsp') hsp
    | ticks hw _ _ _ => exact absurd (hw.control.spawned ▸ hsp') hsp
    | switches hs => exact absurd (hs.spawned ▸ hsp') hsp
    | @spawns _ _ u kind _ hs =>
        rw [hs.spawned] at hsp'
        obtain rfl := (List.mem_cons.mp hsp').resolve_right hsp
        have hkind : s'.kind t = kind := by rw [kind_of_place hs.place, if_pos rfl]; rfl
        exact Or.inr (by rw [← hkind, ht])
    | starts _ _ _ _ _ _ hs hplace =>
        rw [hs] at hsp'
        obtain rfl := (List.mem_cons.mp hsp').resolve_right hsp
        rw [kind_of_place hplace, if_pos rfl] at ht
        cases ht

lemma Sched.Path.kind_rt {s s' : Sched} {ls : List Label} {t : Tid} (h : s.Inv)
    (hp : Path ls s s') (ht : s'.kind t = .rt) : s.kind t = .rt ∨ .spawns t .rt ∈ ls := by
  induction hp with
  | nil => exact Or.inl ht
  | cons ha _ ih =>
      rcases ih (ha.inv h) ht with hrt | hmem
      · refine (ha.kind_rt h hrt).imp_right fun hl => ?_
        rw [hl]
        exact List.mem_cons_self
      · exact Or.inr (List.mem_cons_of_mem _ hmem)

/-- A run with the pointers of the RT threads to their timers, which spawning sets. -/
def ktimerEntities (α : Type) : Recorder α (Tid → Option Timer) where
  Initial := Kernel.Initial
  Admits _ _ _ := True
  start _ := none
  after _ ktimerEntity ev _ :=
    match ev with
    | .spawnRt t _ => Function.update ktimerEntity t (some (.rt t))
    | _ => ktimerEntity

instance (α : Type) (k : Kernel α) (ev : Event α) (k' : Kernel α) :
    Decidable ((ktimerEntities α).Admits k ev k') := instDecidableTrue

namespace Kernel

variable {α : Type} {k k' : Kernel α} {ev : Event α} {reply : Reply α} {status : Status}
  {c : Recorded α (Tid → Option Timer)}

/-- Only `spawnRt` creates an RT thread. -/
lemma Labels.spawnRt {ls : List Label} {t : Tid}
    (h : Labels k k' ev ls ∨ (ev.isQueueOp = true ∧ TurnLabels ev.elapsed ls))
    (ht : .spawns t .rt ∈ ls) : ∃ timing, ev = .spawnRt t timing := by
  -- a step that creates a thread does nothing else
  have hls : ls = [.spawns t .rt] := by
    cases stepLabels_of h <;> simp_all
  subst hls
  rcases h with h | ⟨-, h | ⟨u, o, -, h⟩ | ⟨u, o, -, h⟩⟩
  · cases ev with
    | spawnRt u timing =>
        obtain rfl : t = u := by simpa [Labels] using h
        exact ⟨timing, rfl⟩
    | unlock i =>
        obtain ⟨ls₁, ls₂, heq, rfl | ⟨-, u, rfl⟩, ⟨rfl, -⟩ | ⟨v, rfl⟩⟩ := h <;> simp at heq
    | _ => simp [Labels] at h
  · cases h
  · cases h
  · cases h

lemma ktimerEntities_reachable (h : (ktimerEntities α).Reachable c) : c.kernel.Reachable :=
  Recorder.reachable_kernel (fun _ hk => hk) h

/-- **Every RT thread is reached through its pointer,** which spawning has set. -/
theorem ktimerEntities_points (h : (ktimerEntities α).Reachable c) :
    Stepwise.Points c.record c.kernel.sched := by
  induction h with
  | @start c h =>
      obtain ⟨layout, periodTicks, execTicks, hboot⟩ := h.initial.boot
      obtain ⟨hinv, -, hsp, -⟩ := Sched.boot_base hboot
      intro t ht
      rw [(hinv.fresh t (by rw [hsp]; simp)).1] at ht
      cases ht
  | step hr hs ih =>
      obtain ⟨ev, hs⟩ := hs
      obtain ⟨reply, hrun⟩ := hs.exec
      have hinv := reachable_inv (ktimerEntities_reachable hr)
      obtain ⟨ls, hpath, hl⟩ := (hinv.does hs.enabled hrun).path
      intro t ht
      rw [hs.record]
      rcases hpath.kind_rt hinv.sched ht with hrt | hnew
      · have hold := ih t hrt
        simp only [ktimerEntities]
        split
        · rename_i u _
          by_cases htu : t = u
          · rw [htu, Function.update_self]
          · rwa [Function.update_of_ne htu]
        · exact hold
      · obtain ⟨timing, rfl⟩ := Labels.spawnRt hl hnew
        exact Function.update_self ..

/-- **Errors are atomic.**  In every state of a run and for every caller, an operation whose first
attempt returns an error has left the kernel as it was: the object, the states of the threads, the
run queue, the timers and the wait queue. -/
theorem errors_atomic (h : (ktimerEntities α).Reachable c) (hev : ev.isAttempt = true)
    (hrun : Stepwise.exec c.record c.kernel ev = .ok (k', .err status)) : k' = c.kernel := by
  have hinv := reachable_inv (ktimerEntities_reachable h)
  have hwaits : Stepwise.Waits c.kernel.sched := by
    intro o t ht
    have hstate : c.kernel.sched.state t = .suspended := ((hinv.sched.ok t).waits o ht).1
    rw [hstate]
    rfl
  rw [Stepwise.exec_eq (ktimerEntities_points h) hwaits] at hrun
  exact exec_err hev hrun

/-- A call has the given error. -/
def returnsErr (x : Except Fault (Kernel α × Reply α)) (status : Status) : Bool :=
  match x with
  | .ok (_, .err e) => e = status
  | _ => false

lemma exists_of_returnsErr {x : Except Fault (Kernel α × Reply α)}
    (h : returnsErr x status = true) : ∃ k', x = .ok (k', .err status) := by
  unfold returnsErr at h
  split at h
  · obtain rfl := of_decide_eq_true h
    exact ⟨_, rfl⟩
  · cases h

/-- The idle thread cannot wait for a token. -/
theorem errors_atomic_idle : ∃ c : Recorded ℕ (Tid → Option Timer),
    (ktimerEntities ℕ).Reachable c ∧ c.record 2 = some (.rt 2) ∧
    Stepwise.exec c.record c.kernel (.take (.binary 0) ⟨some 499, some 99⟩) =
      .ok (c.kernel, .err .waitQueueNotFound) := by
  have htest : ((ktimerEntities ℕ).trial
      [.spawnCfs 1 10, .spawnRt 2 ⟨900, 800, 100⟩, .start 0]).any (fun r =>
        r.2.record 2 == some (.rt 2) && returnsErr (Stepwise.exec r.2.record r.2.kernel
          (.take (.binary 0) ⟨some 499, some 99⟩)) .waitQueueNotFound) = true := by
    decide +kernel
  obtain ⟨r, hr, htest⟩ := (Option.any_eq_true ..).mp htest
  simp only [Bool.and_eq_true, beq_iff_eq] at htest
  have hreach := (Recorder.trial_run (fun _ hk => hk) hr).reach
  obtain ⟨k', hrun⟩ := exists_of_returnsErr htest.2
  have hsame := errors_atomic hreach rfl hrun
  exact ⟨r.2, hreach, htest.1, by rw [hrun, hsame]⟩

end Kernel

end Rtsched

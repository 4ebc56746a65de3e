import Rtsched.Kernel.Act
import Rtsched.Kernel.Step

/-!
The steps of the kernel as actions of its scheduler and of its message rings.

* `Kernel.Turn`: what one turn of a queue operation does.
* `Kernel.Does`: what a step does; `Kernel.exec_spec`: **every step of the kernel does this**, or
  fails in a way that touches no link and no message, or is a switch that fails.
-/

namespace Rtsched

open Outcome

variable {α : Type}

/-- The timer registers that a step of a thread reads. -/
def Event.port : Event α → Option TimerPort
  | .yieldyi port | .msleepyi port _ _ | .take _ port | .lock _ port | .send _ _ _ port
  | .receive _ _ port | .retry port => some port
  | _ => none

/-- The ticks since the last reload that a step reads. -/
def Event.elapsed (ev : Event α) : ℕ :=
  match ev.port with
  | some port => port.elapsedTicksSinceCurrentReload
  | none => 0

/-- The queue operation of a step, apart from `retry`. -/
def Event.queueCall : Event α → Option (Call α)
  | .trySend i x | .send i x _ _ => some (.send i x)
  | .tryReceive i | .receive i _ _ => some (.receive i)
  | _ => none

/-- The step is an attempt that never parks its thread. -/
def Event.isTry : Event α → Bool
  | .trySend _ _ | .tryReceive _ => true
  | _ => false

/-- The step is a queue operation. -/
def Event.isQueueOp : Event α → Bool
  | .retry _ => true
  | ev => ev.queueCall.isSome

/-- The object on which the thread of a call waits. -/
def Call.object : Call α → WaitObject
  | .send i _ => .messageQueueSend i
  | .receive i => .messageQueueReceive i

namespace Kernel

variable {k k' : Kernel α} {i : ℕ} {x : α} {l : List α}

/-- The queue operation that a step takes a turn of. -/
def turnCall (k : Kernel α) : Event α → Option (Call α)
  | .retry _ => k.sched.current.bind k.call
  | ev => ev.queueCall

lemma turnCall_of_queueCall {ev : Event α} {call : Call α} (h : ev.queueCall = some call) :
    k.turnCall ev = some call := by
  cases ev with
  | retry _ => cases h
  | _ => exact h

lemma turnCall_of_not_queueOp {ev : Event α} (h : ev.isQueueOp = false) :
    k.turnCall ev = none := by
  cases ev <;> first | rfl | cases h

/-! ### Turns of a queue operation -/

/-- The peer that a queue operation wakes: the first waiter of the object, if there is one. -/
def WakesPeer (o : WaitObject) (k k' : Kernel α) : Prop :=
  (k.sched.waiters o = [] ∧ k'.sched = k.sched) ∨
    ∃ t ∈ k.sched.waiters o, Sched.Act (.wakes t o) k.sched k'.sched

/-- The messages of one ring have become `l`; the other rings, the pending calls and the mutexes
are as before. -/
structure Stores (i : ℕ) (l : List α) (k k' : Kernel α) : Prop where
  ring : ∃ r, r.Holds l ∧ r.cap = (k.queue i).cap ∧ k'.queue = Function.update k.queue i r
  call : k'.call = k.call
  mutex : k'.mutex = k.mutex

/-- The current thread is parked in a call. -/
structure Parks (t : Tid) (call : Call α) (elapsed : ℕ) (k k' : Kernel α) : Prop where
  running : k.sched.state t = .running
  act : Sched.Act (.blocks t call.object elapsed) k.sched k'.sched
  queue : k'.queue = k.queue
  call_eq : k'.call = Function.update k.call t (some call)
  mutex : k'.mutex = k.mutex

/-- What one turn of a queue operation does. -/
inductive Turn (elapsed : ℕ) (k : Kernel α) : Call α → Kernel α → Reply α → Prop
  | sent {i : ℕ} {x : α} {l : List α} {k' : Kernel α} (hl : (k.queue i).Holds l)
      (hlen : l.length ≠ (k.queue i).cap.n) (hs : Stores i (l ++ [x]) k k')
      (hw : WakesPeer (.messageQueueReceive i) k k') : Turn elapsed k (.send i x) k' .done
  | received {i : ℕ} {x : α} {l : List α} {k' : Kernel α} (hl : (k.queue i).Holds (x :: l))
      (hs : Stores i l k k') (hw : WakesPeer (.messageQueueSend i) k k') :
      Turn elapsed k (.receive i) k' (.message x)
  | sendParked {i : ℕ} {x : α} {l : List α} {t : Tid} {k' : Kernel α}
      (hl : (k.queue i).Holds l) (hlen : l.length = (k.queue i).cap.n)
      (hp : Parks t (.send i x) elapsed k k') : Turn elapsed k (.send i x) k' .blocked
  | receiveParked {i : ℕ} {t : Tid} {k' : Kernel α} (hl : (k.queue i).Holds [])
      (hp : Parks t (.receive i) elapsed k k') : Turn elapsed k (.receive i) k' .blocked
  | sendFails {i : ℕ} {x : α} {l : List α} {status : Status} (hl : (k.queue i).Holds l)
      (hlen : l.length = (k.queue i).cap.n) : Turn elapsed k (.send i x) k (.err status)
  | receiveFails {i : ℕ} {status : Status} (hl : (k.queue i).Holds []) :
      Turn elapsed k (.receive i) k (.err status)

/-- The rings of all message queues are in order. -/
def Rings (k : Kernel α) : Prop := ∀ i, ∃ l, (k.queue i).Holds l

lemma wakesPeer_of_wakeFirst {s : Sched} {o : WaitObject} {r : Sched × Option Tid}
    (h : (s.waiters o = [] ∧ r = (s, none)) ∨
      ∃ t, r.2 = some t ∧ (s.waiters o).head? = some t ∧ Sched.Act (.wakes t o) s r.1)
    {k k' : Kernel α} (hk : k.sched = s) (hk' : k'.sched = r.1) : WakesPeer o k k' := by
  subst hk
  rcases h with ⟨hnil, rfl⟩ | ⟨t, -, ht, hact⟩
  · exact Or.inl ⟨hnil, hk'⟩
  · refine Or.inr ⟨t, List.mem_of_mem_head? ht, ?_⟩
    rwa [hk']

/-- **Specification of `try_send`.** -/
theorem trySend_spec (h : k.sched.Inv) (hl : (k.queue i).Holds l) (x : α) (elapsed : ℕ) :
    Ends Fault.Benign (k.trySend i x) fun r =>
      Turn elapsed k (.send i x) r.1 r.2 ∧
        ((r.2 = .done ∧ l.length ≠ (k.queue i).cap.n) ∨
          (r = (k, .err .full) ∧ l.length = (k.queue i).cap.n)) := by
  by_cases hlen : l.length = (k.queue i).cap.n
  · simp only [trySend, Ring.pushBack_full hl hlen, ok_bind]
    exact ⟨.sendFails hl hlen, Or.inr ⟨rfl, hlen⟩⟩
  · obtain ⟨r, hpush, hr, hcap⟩ := Ring.pushBack_spec hl hlen x
    simp only [trySend, hpush, ok_bind]
    refine (Sched.wakeFirst_act h (.messageQueueReceive i)).bind fun p hp => ?_
    exact ⟨.sent hl hlen ⟨⟨r, hr, hcap, rfl⟩, rfl, rfl⟩ (wakesPeer_of_wakeFirst hp rfl rfl),
      Or.inl ⟨rfl, hlen⟩⟩

/-- **Specification of `try_receive`.** -/
theorem tryReceive_spec (h : k.sched.Inv) (hl : (k.queue i).Holds l) (elapsed : ℕ) :
    Ends Fault.Benign (k.tryReceive i) fun r =>
      Turn elapsed k (.receive i) r.1 r.2 ∧
        ((∃ x, r.2 = .message x ∧ l.head? = some x) ∨ (r = (k, .err .empty) ∧ l = [])) := by
  cases l with
  | nil =>
      simp only [tryReceive, Ring.popFront_empty hl, ok_bind]
      exact ⟨.receiveFails hl, Or.inr ⟨rfl, trivial⟩⟩
  | cons x l =>
      obtain ⟨r, hpop, hr, hcap⟩ := Ring.popFront_spec hl
      simp only [tryReceive, hpop, ok_bind]
      refine (Sched.wakeFirst_act h (.messageQueueSend i)).bind fun p hp => ?_
      exact ⟨.received hl ⟨⟨r, hr, hcap, rfl⟩, rfl, rfl⟩ (wakesPeer_of_wakeFirst hp rfl rfl),
        Or.inl ⟨x, rfl, rfl⟩⟩

/-- **Specification of `block`:** the current thread is parked, or the call fails. -/
theorem block_spec (h : k.sched.Inv) (call : Call α) {canBlock : Bool}
    (hpend : canBlock = true → k.sched.pendsv = false) (port : TimerPort) :
    Ends Fault.Benign (k.block call.object call canBlock port) fun r =>
      (∃ status, r = (k, .err status)) ∨
        (∃ t, r.2 = .blocked ∧ canBlock = true ∧
          Parks t call port.elapsedTicksSinceCurrentReload k r.1) := by
  unfold block
  cases hc : k.sched.current with
  | none => exact Or.inl ⟨_, rfl⟩
  | some t =>
      simp only
      split
      · exact Or.inl ⟨_, rfl⟩
      · rename_i hcond
        simp only [Bool.or_eq_true, Bool.not_eq_true', decide_eq_true_eq, not_or,
          ne_eq, not_not, Bool.not_eq_false] at hcond
        obtain ⟨⟨hcan, hrunning⟩, hidle⟩ := hcond
        simp only [blockOn]
        refine Ends.bind (P := fun p => (p = (k, none)) ∨ ∃ s deadlineAt,
          p = ({ k with sched := s }, some deadlineAt) ∧
            Sched.Act (.blocks t call.object port.elapsedTicksSinceCurrentReload) k.sched s) ?_ ?_
        · refine (Sched.blockCurrentThreadOn_act h (hpend hcan) hc call.object port).bind ?_
          rintro _ (⟨rfl, -⟩ | ⟨s, rfl, hact⟩)
          · exact Or.inl rfl
          · exact Or.inr ⟨s, _, rfl, hact⟩
        · rintro _ (rfl | ⟨s, deadlineAt, rfl, hact⟩)
          · exact Or.inl ⟨_, rfl⟩
          · exact Or.inr ⟨t, rfl, hcan, hrunning, hact, rfl, rfl, rfl⟩

/-- **Specification of one turn of `send`.** -/
theorem send_spec (h : k.sched.Inv) (hl : (k.queue i).Holds l) (x : α) {canBlock : Bool}
    (hpend : canBlock = true → k.sched.pendsv = false) (port : TimerPort) :
    Ends Fault.Benign (k.send i x canBlock port) fun r =>
      Turn port.elapsedTicksSinceCurrentReload k (.send i x) r.1 r.2 ∧
        (r.2 = .blocked → canBlock = true) := by
  unfold send
  refine (trySend_spec h hl x port.elapsedTicksSinceCurrentReload).bind ?_
  rintro ⟨k₁, reply⟩ ⟨hturn, ⟨hdone, -⟩ | ⟨heq, hlen⟩⟩
  · replace hdone : reply = .done := hdone
    subst hdone
    exact ⟨hturn, fun h => by cases h⟩
  · obtain ⟨rfl, rfl⟩ := Prod.mk.inj heq
    refine (block_spec h (.send i x) hpend port).imp ?_
    rintro r (⟨status, rfl⟩ | ⟨t, hr, hcan, hp⟩)
    · exact ⟨.sendFails hl hlen, fun h => by cases h⟩
    · rw [hr]
      exact ⟨.sendParked hl hlen hp, fun _ => hcan⟩

/-- **Specification of one turn of `receive`.** -/
theorem receive_spec (h : k.sched.Inv) (hl : (k.queue i).Holds l) {canBlock : Bool}
    (hpend : canBlock = true → k.sched.pendsv = false) (port : TimerPort) :
    Ends Fault.Benign (k.receive i canBlock port) fun r =>
      Turn port.elapsedTicksSinceCurrentReload k (.receive i) r.1 r.2 ∧
        (r.2 = .blocked → canBlock = true) := by
  unfold receive
  refine (tryReceive_spec h hl port.elapsedTicksSinceCurrentReload).bind ?_
  rintro ⟨k₁, reply⟩ ⟨hturn, ⟨y, hmsg, -⟩ | ⟨heq, rfl⟩⟩
  · replace hmsg : reply = .message y := hmsg
    subst hmsg
    exact ⟨hturn, fun h => by cases h⟩
  · obtain ⟨rfl, rfl⟩ := Prod.mk.inj heq
    refine (block_spec h (.receive i) hpend port).imp ?_
    rintro r (⟨status, rfl⟩ | ⟨t, hr, hcan, hp⟩)
    · exact ⟨.receiveFails hl, fun h => by cases h⟩
    · rw [hr]
      exact ⟨.receiveParked hl hp, fun _ => hcan⟩

/-! ### Semaphores and mutexes -/

/-- The actions of the steps that are not queue operations. -/
def Labels (k k' : Kernel α) : Event α → List Label → Prop
  | .yieldyi port, ls => ls = [] ∨ ∃ t, ls = [.yields t port.elapsedTicksSinceCurrentReload]
  | .msleepyi port _ _, ls => ls = [] ∨ ∃ t, ls = [.sleeps t port.elapsedTicksSinceCurrentReload]
  | .setRtThreadStartTime startTime, ls => ls = [] ∨ ∃ t, ls = [.times t startTime]
  | .take i port, ls =>
      ls = [] ∨ ∃ t, ls = [.blocks t i.object port.elapsedTicksSinceCurrentReload]
  | .give i, ls =>
      (ls = [] ∧ k.sched.waiters i.object = []) ∨ ∃ t, ls = [.wakes t i.object]
  | .lock i port, ls =>
      ls = [] ∨ ∃ t, ls = [.blocks t (.mutex i) port.elapsedTicksSinceCurrentReload] ∨
        ((k'.mutex i).ownerBoosted = true ∧
          ∃ u, ls = [.blocks t (.mutex i) port.elapsedTicksSinceCurrentReload, .sets u])
  | .unlock i, ls =>
      ∃ ls₁ ls₂, ls = ls₁ ++ ls₂ ∧
        (ls₁ = [] ∨ ((k.mutex i).ownerBoosted = true ∧ ∃ u, ls₁ = [.sets u])) ∧
        ((ls₂ = [] ∧ k.sched.waiters (.mutex i) = []) ∨ ∃ t, ls₂ = [.wakes t (.mutex i)])
  | .tick port _, ls =>
      (ls = [] ∧ k.sched.started = false) ∨
        (ls = [.ticks (k.sched.ktimers.elapsedTicksSinceLastInterrupt port)] ∧
          k.sched.started = true)
  | .schedule _, ls => ls = [.switches]
  | .spawnCfs t _, ls => ls = [.spawns t .cfs]
  | .spawnRt t _, ls => ls = [.spawns t .rt]
  | .start t, ls => ls = [.starts t]
  | _, ls => ls = []

/-- A step that is not a queue operation. -/
structure Plain (ev : Event α) (k k' : Kernel α) : Prop where
  queue : k'.queue = k.queue
  call : k'.call = k.call
  path : ∃ ls, Sched.Path ls k.sched k'.sched ∧ Labels k k' ev ls

/-- **Specification of `take`.** -/
lemma take_spec (h : k.sched.Inv) (hpend : k.sched.pendsv = false) (i : SemaphoreId)
    (port : TimerPort) :
    Ends Fault.Benign (k.take i port) fun r => Plain (.take i port) k r.1 := by
  unfold take
  split
  · exact ⟨rfl, rfl, [], .nil, Or.inl rfl⟩
  · cases hc : k.sched.current with
    | none => exact ⟨rfl, rfl, [], .nil, Or.inl rfl⟩
    | some t =>
        simp only [blockOn]
        refine Ends.bind (P := fun p : Kernel α × Option ℕ => Plain (.take i port) k p.1) ?_
          fun p hp => ?_
        swap
        · exact hp
        refine (Sched.blockCurrentThreadOn_act h hpend hc i.object port).bind ?_
        rintro _ (⟨rfl, -⟩ | ⟨s, rfl, hact⟩)
        · exact ⟨rfl, rfl, [], .nil, Or.inl rfl⟩
        · exact ⟨rfl, rfl, _, .single hact, Or.inr ⟨t, rfl⟩⟩

/-- **Specification of `give`.** -/
lemma give_spec (h : k.sched.Inv) (i : SemaphoreId) :
    Ends Fault.Benign (k.give i) fun r => Plain (.give i) k r.1 := by
  unfold give
  refine (Sched.wakeFirst_act h i.object).bind ?_
  rintro ⟨s, waiter⟩ (⟨hnil, heq⟩ | ⟨t, hw, -, hact⟩)
  · obtain ⟨rfl, rfl⟩ := Prod.mk.inj heq
    simp only [Option.isSome_none, Bool.false_eq_true, if_false]
    split
    · exact ⟨rfl, rfl, [], .nil, Or.inl ⟨rfl, hnil⟩⟩
    · exact ⟨rfl, rfl, [], .nil, Or.inl ⟨rfl, hnil⟩⟩
  · replace hw : waiter = some t := hw
    subst hw
    exact ⟨rfl, rfl, _, .single hact, Or.inr ⟨t, rfl⟩⟩

/-- A boost sets a deadline or does nothing. -/
lemma boostOwnerDeadline_spec (h : k.sched.Inv) (i : ℕ) (owner waiter : Tid) (deadlineAt : ℕ) :
    Ends Fault.Benign (k.boostOwnerDeadline i owner waiter deadlineAt) fun k' =>
      k' = k ∨ (k'.queue = k.queue ∧ k'.call = k.call ∧ (k'.mutex i).ownerBoosted = true ∧
        Sched.Act (.sets owner) k.sched k'.sched) := by
  unfold boostOwnerDeadline
  simp only
  split
  · exact Or.inl rfl
  · split
    · exact Or.inl rfl
    · refine (Sched.setThreadSchedulerExpireAt_act h owner _).bind fun s hact => ?_
      refine Or.inr ⟨rfl, rfl, ?_, hact⟩
      simp only [setMutex, Function.update_self]
      split
      · assumption
      · rfl

/-- **Specification of `lock`.** -/
lemma lock_spec (h : k.sched.Inv) (hpend : k.sched.pendsv = false) (i : ℕ) (port : TimerPort) :
    Ends Fault.Benign (k.lock i port) fun r => Plain (.lock i port) k r.1 := by
  have hstay : ∀ m, Plain (.lock i port) k (k.setMutex i m) :=
    fun m => ⟨rfl, rfl, [], .nil, Or.inl rfl⟩
  have hsame : Plain (.lock i port) k k := ⟨rfl, rfl, [], .nil, Or.inl rfl⟩
  unfold lock
  cases hc : k.sched.current with
  | none => exact hsame
  | some t =>
      cases ho : (k.mutex i).owner with
      | none => exact hstay _
      | some owner =>
          simp only [blockOn]
          split
          · exact hsame
          · refine Ends.bind (P := fun p => (p = (k, none)) ∨ ∃ s deadlineAt,
              p = ({ k with sched := s }, some deadlineAt) ∧ Sched.Act
                (.blocks t (.mutex i) port.elapsedTicksSinceCurrentReload) k.sched s) ?_ ?_
            · refine (Sched.blockCurrentThreadOn_act h hpend hc (.mutex i) port).bind ?_
              rintro _ (⟨rfl, -⟩ | ⟨s, rfl, hact⟩)
              · exact Or.inl rfl
              · exact Or.inr ⟨s, _, rfl, hact⟩
            · rintro _ (rfl | ⟨s, deadlineAt, rfl, hact⟩)
              · exact hsame
              · refine (boostOwnerDeadline_spec (k := { k with sched := s }) (hact.inv h) i owner t
                  deadlineAt).bind ?_
                rintro k₂ (rfl | ⟨hq, hcall, hboost, hset⟩)
                · exact ⟨rfl, rfl, _, .single hact, Or.inr ⟨t, Or.inl rfl⟩⟩
                · exact ⟨hq, hcall, _, .cons hact (.single hset),
                    Or.inr ⟨t, Or.inr ⟨hboost, owner, rfl⟩⟩⟩

/-- Restoring the owner's deadline. -/
lemma restoreOwnerDeadline_spec (h : k.sched.Inv) (i : ℕ) (owner : Option Tid) :
    Ends Fault.Benign (k.restoreOwnerDeadline i owner) fun k' =>
      k'.queue = k.queue ∧ k'.call = k.call ∧ k'.sched.place = k.sched.place ∧
        ∃ ls, Sched.Path ls k.sched k'.sched ∧
          (ls = [] ∨ ((k.mutex i).ownerBoosted = true ∧ ∃ u, ls = [.sets u])) := by
  unfold restoreOwnerDeadline
  simp only
  split
  · rename_i hboost
    cases owner with
    | none => exact ⟨rfl, rfl, rfl, [], .nil, Or.inl rfl⟩
    | some t =>
        exact (Sched.setThreadSchedulerExpireAt_act h t _).bind fun s hact =>
          ⟨rfl, rfl, hact.sets_place, _, .single hact, Or.inr ⟨hboost, t, rfl⟩⟩
  · exact ⟨rfl, rfl, rfl, [], .nil, Or.inl rfl⟩

/-- **Specification of `unlock_guard`.** -/
lemma unlock_spec (h : k.sched.Inv) (i : ℕ) (howner : (k.mutex i).owner = k.sched.current) :
    Ends Fault.Benign (k.unlock i) fun r => Plain (.unlock i) k r.1 := by
  rw [unlock, if_neg (not_not.mpr howner)]
  refine (restoreOwnerDeadline_spec h i k.sched.current).bind ?_
  rintro k₁ ⟨hq, hcall, hplace, ls₁, hp₁, hl₁⟩
  refine (Sched.wakeFirst_act (hp₁.inv h) (.mutex i)).bind ?_
  rintro ⟨s, waiter⟩ hw
  have hpath : ∃ ls₂, Sched.Path (ls₁ ++ ls₂) k.sched s ∧
      ((ls₂ = [] ∧ k.sched.waiters (.mutex i) = []) ∨ ∃ t, ls₂ = [.wakes t (.mutex i)]) := by
    rcases hw with ⟨hnil, heq⟩ | ⟨t, -, -, hact⟩
    · obtain ⟨rfl, -⟩ := Prod.mk.inj heq
      refine ⟨[], by simpa using hp₁, Or.inl ⟨rfl, ?_⟩⟩
      -- restoring the deadline has left the waiters alone
      refine List.eq_nil_iff_forall_not_mem.mpr fun u hu => ?_
      have hu' : (k.sched.place u).waitsOn (.mutex i) := hu
      rw [← hplace] at hu'
      exact List.not_mem_nil (hnil ▸ hu' : u ∈ [])
    · exact ⟨_, hp₁.append (.single hact), Or.inr ⟨t, rfl⟩⟩
  obtain ⟨ls₂, hp₂, hl₂⟩ := hpath
  exact ⟨hq, hcall, _, hp₂, ls₁, ls₂, rfl, hl₁, hl₂⟩

/-! ### The steps -/

/-- What a step does. -/
inductive Does (k : Kernel α) : Event α → Kernel α → Reply α → Prop
  | turn {ev : Event α} {call : Call α} {k' : Kernel α} {reply : Reply α}
      (hcall : ev.queueCall = some call)
      (hmode : reply = .blocked → k.ThreadMode ∧ ev.isTry = false)
      (h : Turn ev.elapsed k call k' reply) : Does k ev k' reply
  | retry {port : TimerPort} {t : Tid} {call : Call α} {k' : Kernel α} {reply : Reply α}
      (hc : k.sched.current = some t) (hpend : k.sched.pendsv = false)
      (hcall : k.call t = some call)
      (h : Turn port.elapsedTicksSinceCurrentReload (k.setCall t none) call k' reply) :
      Does k (.retry port) k' reply
  | plain {ev : Event α} {k' : Kernel α} {reply : Reply α} (hq : ev.isQueueOp = false)
      (h : Plain ev k k') : Does k ev k' reply

/-- How a step can fail. -/
def StepFault (k : Kernel α) : Event α → Fault → Prop
  | .schedule _, f => k.sched.SwitchFault f
  | _, f => f.Benign

lemma lift_spec {E : Fault → Prop} {ev : Event α} {y : Except Fault Sched}
    (hq : ev.isQueueOp = false)
    (h : Ends E y fun s => ∃ ls, Sched.Path ls k.sched s ∧
      ∀ k' : Kernel α, k'.sched = s → k'.mutex = k.mutex → Labels k k' ev ls) :
    Ends E (k.lift y) fun r => k.Does ev r.1 r.2 :=
  h.bind fun _ ⟨ls, hp, hl⟩ => .plain hq ⟨rfl, rfl, ls, hp, hl _ rfl rfl⟩

/-- **What a step of the kernel does.** -/
theorem exec_spec (h : k.sched.Inv) (hr : k.Rings) {ev : Event α} (hen : k.Enabled ev) :
    Ends (k.StepFault ev) (k.exec ev) fun r => k.Does ev r.1 r.2 := by
  cases ev with
  | yieldyi port =>
      obtain ⟨hmode, hsome⟩ := hen
      obtain ⟨t, hc⟩ := Option.isSome_iff_exists.mp hsome
      refine lift_spec rfl (Ends.of_exists ?_)
      obtain ⟨s, hrun, rfl | hact⟩ := Sched.yieldyi_act h hmode.1 hc port
      · exact ⟨_, hrun, [], .nil, fun _ _ _ => Or.inl rfl⟩
      · exact ⟨_, hrun, _, .single hact, fun _ _ _ => Or.inr ⟨t, rfl⟩⟩
  | msleepyi port ticksPerMs msec =>
      obtain ⟨hmode, hsome⟩ := hen
      obtain ⟨t, hc⟩ := Option.isSome_iff_exists.mp hsome
      refine lift_spec rfl ((Sched.msleepyi_act h hmode.1 hc port ticksPerMs msec).imp ?_)
      rintro s (rfl | hact)
      · exact ⟨[], .nil, fun _ _ _ => Or.inl rfl⟩
      · exact ⟨_, .single hact, fun _ _ _ => Or.inr ⟨t, rfl⟩⟩
  | setRtThreadStartTime startTime =>
      refine .plain rfl ⟨rfl, rfl, ?_⟩
      change ∃ ls, Sched.Path ls k.sched (k.sched.setRtThreadStartTime startTime).1 ∧ _
      rcases Sched.setRtThreadStartTime_act (s := k.sched) hen with heq | ⟨s, t, heq, hact⟩
      · rw [heq]
        exact ⟨[], .nil, Or.inl rfl⟩
      · rw [heq]
        exact ⟨_, .single hact, Or.inr ⟨t, rfl⟩⟩
  | tryTake i =>
      refine .plain rfl ?_
      simp only [tryTake]
      split
      · exact ⟨rfl, rfl, [], .nil, rfl⟩
      · exact ⟨rfl, rfl, [], .nil, rfl⟩
  | take i port => exact (take_spec h hen.1 i port).imp fun _ hp => .plain rfl hp
  | give i => exact (give_spec h i).imp fun _ hp => .plain rfl hp
  | tryLock i =>
      refine .plain rfl ?_
      simp only [tryLock]
      split
      · exact ⟨rfl, rfl, [], .nil, rfl⟩
      · exact ⟨rfl, rfl, [], .nil, rfl⟩
      · exact ⟨rfl, rfl, [], .nil, rfl⟩
  | lock i port => exact (lock_spec h hen.1 i port).imp fun _ hp => .plain rfl hp
  | unlock i => exact (unlock_spec h i hen.2.2).imp fun _ hp => .plain rfl hp
  | trySend i x =>
      obtain ⟨l, hl⟩ := hr i
      refine (trySend_spec h hl x 0).imp fun r hsend => .turn rfl (fun hb => ?_) hsend.1
      rcases hsend.2 with ⟨hr, -⟩ | ⟨hr, -⟩
      · rw [hr] at hb
        cases hb
      · rw [hr] at hb
        cases hb
  | tryReceive i =>
      obtain ⟨l, hl⟩ := hr i
      refine (tryReceive_spec h hl 0).imp fun r hreceive => .turn rfl (fun hb => ?_) hreceive.1
      rcases hreceive.2 with ⟨x, hr, -⟩ | ⟨hr, -⟩
      · rw [hr] at hb
        cases hb
      · rw [hr] at hb
        cases hb
  | send i x canBlock port =>
      obtain ⟨l, hl⟩ := hr i
      exact (send_spec h hl x (fun hb => (hen hb).1) port).imp fun _ ht =>
        .turn rfl (fun hb => ⟨hen (ht.2 hb), rfl⟩) ht.1
  | receive i canBlock port =>
      obtain ⟨l, hl⟩ := hr i
      exact (receive_spec h hl (fun hb => (hen hb).1) port).imp fun _ ht =>
        .turn rfl (fun hb => ⟨hen (ht.2 hb), rfl⟩) ht.1
  | retry port =>
      obtain ⟨hpend, t, hc, hsome⟩ := hen
      obtain ⟨call, hcall⟩ := Option.isSome_iff_exists.mp hsome
      cases call with
      | send i x =>
          have hrun : k.exec (.retry port) = (k.setCall t none).send i x true port := by
            simp only [exec, retry, hc, hcall]
          rw [hrun]
          obtain ⟨l, hl⟩ := hr i
          exact (send_spec (k := k.setCall t none) h hl x (fun _ => hpend) port).imp
            fun _ ht => .retry hc hpend hcall ht.1
      | receive i =>
          have hrun : k.exec (.retry port) = (k.setCall t none).receive i true port := by
            simp only [exec, retry, hc, hcall]
          rw [hrun]
          obtain ⟨l, hl⟩ := hr i
          exact (receive_spec (k := k.setCall t none) h hl (fun _ => hpend) port).imp
            fun _ ht => .retry hc hpend hcall ht.1
  | tick port fuel =>
      refine lift_spec rfl ((Sched.handleSchedTick_act h port fuel).imp ?_)
      rintro s (⟨hst, rfl⟩ | ⟨hst, hact⟩)
      · exact ⟨[], .nil, fun _ _ _ => Or.inl ⟨rfl, hst⟩⟩
      · exact ⟨_, .single hact, fun _ _ _ => Or.inr ⟨rfl, hst⟩⟩
  | schedule port =>
      obtain ⟨c, hc⟩ := Option.isSome_iff_exists.mp hen.2
      exact lift_spec rfl ((Sched.schedule_spec h.toBase hc port).imp fun s hs =>
        ⟨_, .single (.switches hs), fun _ _ _ => rfl⟩)
  | spawnCfs t priority =>
      obtain ⟨-, ht, hp⟩ := hen
      refine lift_spec rfl ((Sched.spawnCfs_spec h.toBase ht hp).imp ?_)
      rintro s ⟨hs, hk, hr⟩
      exact ⟨_, .single (.spawns ht hs (Or.inl hk) (fun hne => absurd rfl hne)
        fun _ => ⟨priority, hp, hr⟩), fun _ _ _ => rfl⟩
  | spawnRt t timing =>
      obtain ⟨-, ht⟩ := hen
      refine lift_spec rfl ((Sched.spawnRt_spec h.toBase ht timing).imp ?_)
      rintro s ⟨hs, hk, hact, hr⟩
      exact ⟨_, .single (.spawns ht hs (Or.inr ⟨timing, rfl, hk, hact⟩) (fun _ => hr)
        fun hcfs => by cases hcfs), fun _ _ _ => rfl⟩
  | start t =>
      obtain ⟨-, ht, hst⟩ := hen
      have hcur : k.sched.current = none := by
        have hsome := h.started
        rw [hst] at hsome
        simpa using hsome.symm
      obtain ⟨s, hrun, hinv, hk, hw, hc', hp, hs, hplace, hkeys, htree, hr⟩ :=
        Sched.spawnMainThread_spec h ht hcur
      refine lift_spec rfl (Ends.of_exists ⟨s, hrun, _,
        .single (.starts ht hinv hk hcur hc' hp hs hplace hkeys htree hr), fun _ _ _ => rfl⟩)

end Kernel

end Rtsched

import Rtsched.Kernel.TickSpec

/-!
The invariant of the scheduler.

* `Sched.Base` and `Sched.Inv`: every thread is where its state says, the chosen timer is the
  first active one, and only the current thread runs.
* `Sched.Keeps`: a step that runs no thread and creates none; such steps keep the invariant
  (`Sched.Keeps.base`).
* `Sched.Moves.keeps`, `Sched.Woken.keeps`: steps that move one thread, and ticks.
-/

namespace Rtsched

open Ordered Outcome

namespace Sched

variable {s s' : Sched} {t : Tid} {p : Place}

/-- Every thread is where its state says, the chosen timer is the first active one, and only the
current thread runs. -/
structure Base (s : Sched) : Prop where
  tidy : s.Tidy
  ok : ∀ t, (s.place t).Ok
  cfs : s.ktimers.Linked .cfs
  wait : s.ktimers.Linked .wait
  next : s.ktimers.next = s.ktimers.active.head?
  running : ∀ t, s.state t = .running → s.current = some t
  isCfs : ∀ t, s.current = some t → s.currentIsCfs = decide (s.kind t = .cfs)
  idle : ∀ i, s.idle = some i → s.kind i = .idle ∧ i ∈ s.spawned
  hasIdle : s.current.isSome → s.idle.isSome
  started : s.started = s.current.isSome
  spawned : ∀ t, s.current = some t → t ∈ s.spawned
  fresh : ∀ t, t ∉ s.spawned → s.kind t = .idle ∧ s.state t = .ready

/-- The invariant of the scheduler between steps: besides, the current thread is blocked only
while a switch is pending. -/
structure Inv (s : Sched) : Prop extends Base s where
  awake : s.pendsv = false → ∀ t, s.current = some t → (s.state t).isBlocked = false

namespace Base

/-- A thread that is scheduled by a timer has been created. -/
lemma mem_spawned (h : s.Base) (hkind : s.kind t ≠ .idle) : t ∈ s.spawned := by
  by_contra ht
  exact hkind (h.fresh t ht).1

/-- Once a switch is requested the current thread may be blocked. -/
lemma request (h : s.Base) : s.requestContextSwitch.Inv where
  tidy := ⟨h.tidy.ktimers, h.tidy.runq, h.tidy.waitq, h.tidy.suspended, h.tidy.waiters⟩
  ok := h.ok
  cfs := h.cfs
  wait := h.wait
  next := h.next
  running := h.running
  isCfs := h.isCfs
  idle := h.idle
  hasIdle := h.hasIdle
  started := h.started
  spawned := h.spawned
  fresh := h.fresh
  awake hpend := absurd hpend (by simp [requestContextSwitch])

end Base

/-! ### Steps that run no thread -/

/-- A step that runs no thread and creates none. -/
structure Keeps (s s' : Sched) : Prop where
  tidy : s'.Tidy
  ok : ∀ t, (s'.place t).Ok
  cfs : s'.ktimers.Linked .cfs
  wait : s'.ktimers.Linked .wait
  next : s'.ktimers.next = s'.ktimers.active.head?
  kind : ∀ t, s'.kind t = s.kind t
  running : ∀ t, s'.state t = .running → s.state t = .running
  fresh : ∀ t, t ∉ s.spawned → s'.state t = s.state t
  control : SameControl s s'

lemma Keeps.base (h : s.Base) (hk : Keeps s s') : s'.Base where
  tidy := hk.tidy
  ok := hk.ok
  cfs := hk.cfs
  wait := hk.wait
  next := hk.next
  running t ht := hk.control.current.trans (h.running t (hk.running t ht))
  isCfs t ht := by
    rw [hk.control.currentIsCfs, hk.kind]
    exact h.isCfs t (hk.control.current.symm.trans ht)
  idle i hi := by
    rw [hk.kind, hk.control.spawned]
    exact h.idle i (hk.control.idle.symm.trans hi)
  hasIdle := by
    rw [hk.control.idle, hk.control.current]
    exact h.hasIdle
  started := by
    rw [hk.control.current, hk.control.started]
    exact h.started
  spawned t ht := by
    rw [hk.control.spawned]
    exact h.spawned t (hk.control.current.symm.trans ht)
  fresh t ht := by
    rw [hk.control.spawned] at ht
    rw [hk.kind, hk.fresh t ht]
    exact h.fresh t ht

/-- Moving one thread to a right place where it does not run. -/
lemma Moves.keeps (h : s.Base) (hm : Moves t p s s') (hp : p.Ok) (hkind : p.kind = s.kind t)
    (ht : s.kind t ≠ .idle) (hrun : p.state = .running → s.state t = .running)
    (hnext : s'.ktimers.next = s'.ktimers.active.head?) : Keeps s s' where
  tidy := hm.tidy
  ok := hm.ok h.ok hp
  cfs := (hm.linked .cfs (by simp)).mpr h.cfs
  wait := (hm.linked .wait (by simp)).mpr h.wait
  next := hnext
  kind u := by
    by_cases hu : u = t
    · rw [hu, hm.kind_self, hkind]
    · exact congrArg Place.kind (hm.other hu)
  running u hu := by
    by_cases hut : u = t
    · subst hut
      exact hrun (hm.state_self.symm.trans hu)
    · exact (congrArg Place.state (hm.other hut)).symm.trans hu
  fresh u hu := by
    refine congrArg Place.state (hm.other ?_)
    rintro rfl
    exact hu (h.mem_spawned ht)
  control := hm.control

/-- A step that moves no thread. -/
lemma Moves.keeps_self (h : s.Base) (hm : Moves t (s.place t) s s')
    (hnext : s'.ktimers.next = s'.ktimers.active.head?) : Keeps s s' := by
  have hplace : s'.place = s.place := by rw [hm.place, Function.update_eq_self]
  exact
    { tidy := hm.tidy
      ok := fun u => by
        rw [hplace]
        exact h.ok u
      cfs := (hm.linked .cfs (by simp)).mpr h.cfs
      wait := (hm.linked .wait (by simp)).mpr h.wait
      next := hnext
      kind := fun u => congrArg Place.kind (congrFun hplace u)
      running := fun u hu => (congrArg Place.state (congrFun hplace u)).symm.trans hu
      fresh := fun u _ => congrArg Place.state (congrFun hplace u)
      control := hm.control }

lemma Blocks.keeps {elapsed : ℕ} (h : s.Base) (hb : Blocks t p elapsed s s') (hp : p.Ok)
    (hkind : p.kind = s.kind t) (ht : s.kind t ≠ .idle) (hrun : p.state ≠ .running) :
    Keeps s s' :=
  hb.moves.keeps h hp hkind ht (fun hr => absurd hr hrun) hb.next

lemma Readies.keeps {ev : Option SyncType} (h : s.Base) (hr : Readies t ev s s')
    (ht : s.kind t ≠ .idle) : Keeps s s' :=
  hr.moves.keeps h (Place.ok_free (fun _ => rfl) fun hs => absurd hs (by decide)) rfl ht
    (fun hs => absurd hs (by simp [Place.settled])) hr.next

/-- A tick makes threads ready and moves no other. -/
lemma Woken.keeps {elapsed : ℕ} (h : s.Base) (hw : Woken elapsed s s')
    (hcfs : s'.ktimers.Linked .cfs) (hwait : s'.ktimers.Linked .wait)
    (hnext : s'.ktimers.next = s'.ktimers.active.head?) : Keeps s s' where
  tidy := hw.tidy
  ok := hw.ok
  cfs := hcfs
  wait := hwait
  next := hnext
  kind := hw.kind_eq
  running u hu := by
    by_cases hwaiting : s.state u = .waiting
    · rcases (hw.woken u hwaiting).place with hplace | hplace
      · exact (congrArg Place.state hplace).symm.trans hu
      · have hready : s'.state u = .ready := congrArg Place.state hplace
        rw [hready] at hu
        exact absurd hu (by decide)
    · exact (congrArg Place.state (hw.other u hwaiting)).symm.trans hu
  fresh u hu := by
    refine congrArg Place.state (hw.other u ?_)
    rw [(h.fresh u hu).2]
    decide
  control := hw.control

/-- The time has advanced; nothing else has changed. -/
lemma advanced_base (h : s.Base) (elapsed : ℕ) : (s.advanced elapsed).Base :=
  Keeps.base h ⟨advanced_tidy h.tidy elapsed, h.ok, h.cfs, h.wait, h.next, fun _ => rfl,
    fun _ hr => hr, fun _ _ => rfl, ⟨rfl, rfl, rfl, rfl, rfl, rfl⟩⟩

/-! ### Deadlines -/

/-- The deadline of a thread has been set. -/
structure Sets (t : Tid) (expireAt : ℕ) (s s' : Sched) : Prop where
  queues : SameQueues s s'
  keys : s'.deadlineAt = s.deadlineAt
  waiters : s'.waiters = s.waiters
  frame : KTimers.Frame (fun k => s.threadSchedulerKtimer t = some k) s.ktimers s'.ktimers
  expireAt : s.ktimers.nowTicks < expireAt → ∀ k, s.threadSchedulerKtimer t = some k →
    (s'.ktimers.entity k).expireAt = expireAt

/-- **Specification of `set_thread_scheduler_expire_at`:** no thread moves. -/
lemma setThreadSchedulerExpireAt_spec (h : s.Base) (t : Tid) (expireAt : ℕ) :
    Ends Fault.Benign (s.setThreadSchedulerExpireAt t expireAt) fun s' =>
      Moves t (s.place t) s s' ∧ s'.ktimers.nowTicks = s.ktimers.nowTicks ∧
        s'.ktimers.next = s'.ktimers.active.head? ∧ Sets t expireAt s s' := by
  unfold setThreadSchedulerExpireAt
  cases hk : s.threadSchedulerKtimer t with
  | none =>
      exact ⟨.refl h.tidy t, rfl, h.next, ⟨rfl, rfl, rfl⟩, rfl, rfl, .refl _, fun _ k hk' => by
        rw [hk] at hk'
        cases hk'⟩
  | some k =>
      have hkt : near t k ∧ k ≠ .wait := by
        unfold threadSchedulerKtimer at hk
        split at hk
        · obtain rfl : Timer.cfs = k := by simpa using hk
          exact ⟨Or.inl rfl, by simp⟩
        · obtain rfl : Timer.rt t = k := by simpa using hk
          exact ⟨Or.inr (Or.inr rfl), by simp⟩
        · exact absurd hk (by simp)
      refine (KTimers.setSchedulerExpireAt_spec h.tidy.ktimers hkt.2 expireAt).bind
        fun q ⟨hq, hframe, hl, hnow, hnext, hexp⟩ => ?_
      have hlinked : ∀ j, q.Linked j ↔ s.ktimers.Linked j := by
        intro j
        by_cases hj : j = k
        · rw [hj]
          exact hl
        · exact hframe.linked j hj
      refine ⟨(moves_ktimers (t := t) h.tidy hq (hframe.mono ?_) fun j _ => hlinked j).congr ?_,
        hnow, hnext h.next, ⟨rfl, rfl, (hframe.same_wait hq (Ne.symm hkt.2)).entity⟩,
        rfl, rfl, hframe.mono ?_, fun hlt j hj => ?_⟩
      · rintro j rfl
        exact hkt.1
      · rw [hlinked]
        rfl
      · rintro j rfl
        exact hk
      · obtain rfl : k = j := by simpa [hk] using hj
        exact hexp hlt

end Sched

end Rtsched

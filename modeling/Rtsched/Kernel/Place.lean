import Rtsched.Kernel.Sched
import Rtsched.Kernel.KtimerSpec
import Rtsched.Kernel.RunqSpec

/-!
Where a thread is: its state and the queues that hold it.

* `Place` and `Sched.place`: the indices of the scheduler as one thread sees them.
* `Place.Ok`: **the state of a thread tells exactly which queues hold it**.
* `Place.settled`: the place that a state and a set of awaited objects determine.
* `Sched.Tidy`: every queue is ordered.
* `Sched.Moves t p`: a step that moves the thread `t` to the place `p` and leaves every other
  thread where it is.
-/

namespace Rtsched

open Ordered Outcome

namespace ThreadState

lemma ne_waiting {x : ThreadState} (h : x.isBlocked = false) : x ≠ .waiting := by
  rintro rfl
  exact absurd h (by decide)

lemma ne_suspended {x : ThreadState} (h : x.isBlocked = false) : x ≠ .suspended := by
  rintro rfl
  exact absurd h (by decide)

lemma canTransitionTo_of_not_blocked {x y : ThreadState} (h : x.isBlocked = false) :
    x.canTransitionTo y = true := by
  cases x <;> simp [isBlocked, canTransitionTo] at h ⊢

lemma canTransitionTo_ready (x : ThreadState) : x.canTransitionTo .ready = true := by
  cases x <;> rfl

end ThreadState

/-- The state of a thread and the queues that hold it: the run queue, the timer trees, the timeout
tree, the suspended list and the waiter trees. -/
@[ext] structure Place where
  kind : ThreadKind
  state : ThreadState
  queued : Prop
  timer : Prop
  timed : Prop
  parked : Prop
  event : Option SyncType
  waitsOn : WaitObject → Prop

/-- The state of the thread tells which queues hold it, and a suspended thread with an event is
registered with exactly one object. -/
structure Place.Ok (p : Place) : Prop where
  queued : p.queued ↔ p.kind = .cfs ∧ p.state = .ready
  timer : p.timer ↔ p.kind = .rt ∧ p.state.isBlocked = false
  timed : p.timed ↔ p.state = .waiting
  parked : p.parked ↔ p.state = .suspended
  idle : p.kind = .idle → p.state.isBlocked = false
  waits : ∀ o, p.waitsOn o → p.state = .suspended ∧ p.event = some o.syncType
  unique : ∀ o o', p.waitsOn o → p.waitsOn o' → o = o'
  registered : p.state = .suspended → p.event ≠ none → ∃ o, p.waitsOn o

/-- The place that the state of a thread determines. -/
def Place.settled (kind : ThreadKind) (state : ThreadState) (event : Option SyncType)
    (waitsOn : WaitObject → Prop) : Place where
  kind := kind
  state := state
  queued := kind = .cfs ∧ state = .ready
  timer := kind = .rt ∧ state.isBlocked = false
  timed := state = .waiting
  parked := state = .suspended
  event := event
  waitsOn := waitsOn

/-- The place of a thread that waits for no object. -/
abbrev Place.free (kind : ThreadKind) (state : ThreadState) (event : Option SyncType) : Place :=
  .settled kind state event fun _ => False

namespace Place

lemma Ok.eq_settled {p : Place} (h : p.Ok) : p = settled p.kind p.state p.event p.waitsOn := by
  ext <;> simp [settled, h.queued, h.timer, h.timed, h.parked]

/-- A thread that is not suspended waits for no object. -/
lemma Ok.eq_free {p : Place} (h : p.Ok) (hs : p.state ≠ .suspended) :
    p = free p.kind p.state p.event := by
  have hnone : p.waitsOn = fun _ => False := by
    funext o
    exact propext ⟨fun ho => hs (h.waits o ho).1, False.elim⟩
  rw [free, ← hnone]
  exact h.eq_settled

lemma Ok.kind_ne_idle {p : Place} (h : p.Ok) (hb : p.state.isBlocked = true) :
    p.kind ≠ .idle := fun hidle => by
  rw [h.idle hidle] at hb
  exact absurd hb (by decide)

lemma ok_free {kind : ThreadKind} {state : ThreadState} {event : Option SyncType}
    (hidle : kind = .idle → state.isBlocked = false)
    (hevent : state = .suspended → event = none) : (free kind state event).Ok where
  queued := Iff.rfl
  timer := Iff.rfl
  timed := Iff.rfl
  parked := Iff.rfl
  idle := hidle
  waits _ h := h.elim
  unique _ _ h := h.elim
  registered h hne := absurd (hevent h) hne

/-- A suspended thread that waits for one object. -/
lemma ok_suspended {kind : ThreadKind} (hkind : kind ≠ .idle) (o : WaitObject) :
    (settled kind .suspended (some o.syncType) (· = o)).Ok where
  queued := Iff.rfl
  timer := Iff.rfl
  timed := Iff.rfl
  parked := Iff.rfl
  idle h := absurd h hkind
  waits o' h := ⟨rfl, by rw [(h : o' = o)]; rfl⟩
  unique o₁ o₂ h₁ h₂ := by
    have h₁ : o₁ = o := h₁
    have h₂ : o₂ = o := h₂
    rw [h₁, h₂]
  registered _ _ := ⟨o, rfl⟩

end Place

namespace Sched

variable {s s' s'' : Sched} {t u : Tid} {p p' : Place}

/-- The place of a thread. -/
def place (s : Sched) (t : Tid) : Place where
  kind := s.kind t
  state := s.state t
  queued := t ∈ s.runq.tree
  timer := s.ktimers.Linked (.rt t)
  timed := t ∈ s.waitq.tree
  parked := t ∈ s.waitq.suspended
  event := (s.waitq.entity t).waitevt
  waitsOn o := t ∈ s.waiters o

/-- Every queue is ordered. -/
structure Tidy (s : Sched) : Prop where
  ktimers : s.ktimers.Wf
  runq : s.runq.Ordered
  waitq : Increasing s.waitq.cmp s.waitq.tree
  suspended : s.waitq.suspended.Nodup
  waiters : ∀ o, Increasing s.syncCmp (s.waiters o)

/-- What only `schedule`, the creation of threads and requests for a switch change. -/
structure SameControl (s s' : Sched) : Prop where
  current : s'.current = s.current
  currentIsCfs : s'.currentIsCfs = s.currentIsCfs
  idle : s'.idle = s.idle
  started : s'.started = s.started
  pendsv : s'.pendsv = s.pendsv
  spawned : s'.spawned = s.spawned

namespace SameControl

lemma refl (s : Sched) : SameControl s s := ⟨rfl, rfl, rfl, rfl, rfl, rfl⟩

lemma trans (h : SameControl s s') (h' : SameControl s' s'') : SameControl s s'' :=
  ⟨h'.current.trans h.current, h'.currentIsCfs.trans h.currentIsCfs, h'.idle.trans h.idle,
    h'.started.trans h.started, h'.pendsv.trans h.pendsv, h'.spawned.trans h.spawned⟩

end SameControl

/-- The keys of the threads other than `t` in the wait structures. -/
structure SameKeys (t : Tid) (s s' : Sched) : Prop where
  wait : ∀ u ≠ t, s'.waitq.entity u = s.waitq.entity u
  sync : ∀ u ≠ t, s'.deadlineAt u = s.deadlineAt u

namespace SameKeys

lemma refl (t : Tid) (s : Sched) : SameKeys t s s := ⟨fun _ _ => rfl, fun _ _ => rfl⟩

lemma trans (h : SameKeys t s s') (h' : SameKeys t s' s'') : SameKeys t s s'' where
  wait u hu := (h'.wait u hu).trans (h.wait u hu)
  sync u hu := (h'.sync u hu).trans (h.sync u hu)

end SameKeys

/-- The timers that a step on the thread `t` may set: its own and those of the system. -/
def near (t : Tid) (k : Timer) : Prop := k = .cfs ∨ k = .wait ∨ k = .rt t

/-- A step that moves the thread `t` to the place `p`. -/
structure Moves (t : Tid) (p : Place) (s s' : Sched) : Prop where
  tidy : s'.Tidy
  place : s'.place = Function.update s.place t p
  control : SameControl s s'
  frame : KTimers.Frame (near t) s.ktimers s'.ktimers
  linked : ∀ k, k ≠ .rt t → (s'.ktimers.Linked k ↔ s.ktimers.Linked k)
  keys : SameKeys t s s'

namespace Moves

lemma refl (h : s.Tidy) (t : Tid) : Moves t (s.place t) s s :=
  ⟨h, (Function.update_eq_self ..).symm, .refl s, .refl _, fun _ _ => Iff.rfl, .refl t s⟩

lemma trans (h : Moves t p s s') (h' : Moves t p' s' s'') : Moves t p' s s'' where
  tidy := h'.tidy
  place := by rw [h'.place, h.place, Function.update_idem]
  control := h.control.trans h'.control
  frame := h.frame.trans h'.frame
  linked k hk := (h'.linked k hk).trans (h.linked k hk)
  keys := h.keys.trans h'.keys

lemma congr (h : Moves t p s s') (hp : p = p') : Moves t p' s s' := hp ▸ h

lemma self (h : Moves t p s s') : s'.place t = p := by rw [h.place, Function.update_self]

lemma other (h : Moves t p s s') (hu : u ≠ t) : s'.place u = s.place u := by
  rw [h.place, Function.update_of_ne hu]

lemma kind_self (h : Moves t p s s') : s'.kind t = p.kind := congrArg Place.kind h.self

lemma state_self (h : Moves t p s s') : s'.state t = p.state := congrArg Place.state h.self

/-- Moving one thread to a place that is right keeps every thread at a right place. -/
lemma ok (h : Moves t p s s') (hs : ∀ u, (s.place u).Ok) (hp : p.Ok) (u : Tid) :
    (s'.place u).Ok := by
  by_cases hu : u = t
  · rw [hu, h.self]
    exact hp
  · rw [h.other hu]
    exact hs u

end Moves

/-! ### Steps on one queue -/

lemma place_eq_update (hself : s'.place t = p) (hother : ∀ u ≠ t, s'.place u = s.place u) :
    s'.place = Function.update s.place t p := by
  funext u
  by_cases hu : u = t
  · rw [hu, hself, Function.update_self]
  · rw [hother u hu, Function.update_of_ne hu]

/-- A change of the run queue that concerns the thread `t`. -/
lemma moves_runq (h : s.Tidy) {r : RunQueue} (hr : r.Ordered)
    (hmem : ∀ u ≠ t, u ∈ r.tree ↔ u ∈ s.runq.tree) :
    Moves t { s.place t with queued := t ∈ r.tree } s { s with runq := r } where
  tidy := ⟨h.ktimers, hr, h.waitq, h.suspended, h.waiters⟩
  place := by
    refine place_eq_update rfl fun u hu => ?_
    ext <;> simp [Sched.place, hmem u hu]
  control := ⟨rfl, rfl, rfl, rfl, rfl, rfl⟩
  frame := .refl _
  linked _ _ := Iff.rfl
  keys := ⟨fun _ _ => rfl, fun _ _ => rfl⟩

/-- A change of the timers that concerns the thread `t` and the system timers. -/
lemma moves_ktimers (h : s.Tidy) {q : KTimers} (hq : q.Wf)
    (hframe : KTimers.Frame (near t) s.ktimers q)
    (hlinked : ∀ k, k ≠ .rt t → (q.Linked k ↔ s.ktimers.Linked k)) :
    Moves t { s.place t with timer := q.Linked (.rt t) } s { s with ktimers := q } where
  tidy := ⟨hq, h.runq, h.waitq, h.suspended, h.waiters⟩
  place := by
    refine place_eq_update rfl fun u hu => ?_
    ext <;> simp [Sched.place, hlinked (.rt u) (by simp [hu])]
  control := ⟨rfl, rfl, rfl, rfl, rfl, rfl⟩
  frame := hframe
  linked := hlinked
  keys := ⟨fun _ _ => rfl, fun _ _ => rfl⟩

/-- Assigning a runtime counter. -/
lemma moves_setRuntime (h : s.Tidy) (t : Tid) (n : ℕ) :
    Moves t (s.place t) s { s with ktimers := s.ktimers.setRuntime t n } := by
  have hq := h.ktimers
  have hset : (s.ktimers.setRuntime t n).Wf :=
    ⟨hq.active, hq.inactive, hq.flag_active, hq.flag_inactive, hq.wait_notMem, hq.now_le⟩
  refine moves_ktimers h hset (KTimers.edits_setRuntime.frame.mono ?_) fun _ _ => Iff.rfl
  rintro k rfl
  exact Or.inr (Or.inr rfl)

/-- A change of the wait queue that concerns the thread `t`. -/
lemma moves_waitq (h : s.Tidy) (w : WaitQueue) (hw : Increasing w.cmp w.tree)
    (hsusp : w.suspended.Nodup)
    (hmem : ∀ u ≠ t, (u ∈ w.tree ↔ u ∈ s.waitq.tree) ∧
      (u ∈ w.suspended ↔ u ∈ s.waitq.suspended) ∧ w.entity u = s.waitq.entity u) :
    Moves t { s.place t with
      timed := t ∈ w.tree, parked := t ∈ w.suspended, event := (w.entity t).waitevt } s
      { s with waitq := w } where
  tidy := ⟨h.ktimers, h.runq, hw, hsusp, h.waiters⟩
  place := by
    refine place_eq_update rfl fun u hu => ?_
    obtain ⟨htree, hpark, hent⟩ := hmem u hu
    ext <;> simp [Sched.place, htree, hpark, hent]
  control := ⟨rfl, rfl, rfl, rfl, rfl, rfl⟩
  frame := .refl _
  linked _ _ := Iff.rfl
  keys := ⟨fun u hu => (hmem u hu).2.2, fun _ _ => rfl⟩

/-- A change of the waiter trees that concerns the thread `t`. -/
lemma moves_waiters (h : s.Tidy) (deadlineAt : Tid → ℕ) (waiters : WaitObject → List Tid)
    (hinc : ∀ o, Increasing (keyCmp deadlineAt id) (waiters o))
    (hmem : ∀ u ≠ t, ∀ o, u ∈ waiters o ↔ u ∈ s.waiters o)
    (hkey : ∀ u ≠ t, deadlineAt u = s.deadlineAt u) :
    Moves t { s.place t with waitsOn := fun o => t ∈ waiters o } s
      { s with deadlineAt := deadlineAt, waiters := waiters } where
  tidy := ⟨h.ktimers, h.runq, h.waitq, h.suspended, hinc⟩
  place := by
    refine place_eq_update rfl fun u hu => ?_
    ext <;> simp [Sched.place, hmem u hu]
  control := ⟨rfl, rfl, rfl, rfl, rfl, rfl⟩
  frame := .refl _
  linked _ _ := Iff.rfl
  keys := ⟨fun _ _ => rfl, hkey⟩

/-- `set_state` on an allowed transition. -/
lemma setState_spec (h : s.Tidy) {x : ThreadState} (hx : (s.state t).canTransitionTo x = true) :
    ∃ s', s.setState t x = .ok s' ∧ Moves t { s.place t with state := x } s s' ∧
      s'.ktimers = s.ktimers ∧ s'.runq = s.runq ∧ s'.waitq = s.waitq ∧
        s'.waiters = s.waiters := by
  refine ⟨{ s with state := Function.update s.state t x }, ?_, ⟨?_, ?_, ?_, .refl _,
    fun _ _ => Iff.rfl, ⟨fun _ _ => rfl, fun _ _ => rfl⟩⟩, rfl, rfl, rfl, rfl⟩
  · rw [setState, if_pos hx]
  · exact ⟨h.ktimers, h.runq, h.waitq, h.suspended, h.waiters⟩
  · refine place_eq_update ?_ fun u hu => ?_
    · ext <;> simp [Sched.place]
    · ext <;> simp [Sched.place, hu]
  · exact ⟨rfl, rfl, rfl, rfl, rfl, rfl⟩

/-! ### Steps that move one thread -/

/-- The kinds after a step that moves one thread. -/
lemma kind_of_place (hplace : s'.place = Function.update s.place t p) (u : Tid) :
    s'.kind u = if u = t then p.kind else s.kind u := by
  have hu : s'.place u = if u = t then p else s.place u := by rw [hplace, Function.update_apply]
  exact (congrArg Place.kind hu).trans (apply_ite Place.kind ..)

/-- The states after a step that moves one thread. -/
lemma state_of_place (hplace : s'.place = Function.update s.place t p) (u : Tid) :
    s'.state u = if u = t then p.state else s.state u := by
  have hu : s'.place u = if u = t then p else s.place u := by rw [hplace, Function.update_apply]
  exact (congrArg Place.state hu).trans (apply_ite Place.state ..)

/-- The events after a step that moves one thread. -/
lemma waitevt_of_place (hplace : s'.place = Function.update s.place t p) (u : Tid) :
    (s'.waitq.entity u).waitevt = if u = t then p.event else (s.waitq.entity u).waitevt := by
  have hu : s'.place u = if u = t then p else s.place u := by rw [hplace, Function.update_apply]
  exact (congrArg Place.event hu).trans (apply_ite Place.event ..)

end Sched

end Rtsched

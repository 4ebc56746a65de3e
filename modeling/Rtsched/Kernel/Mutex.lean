import Rtsched.Kernel.SyncSpec

/-!
Mutexes over whole runs.

* `Guards`: a kernel with the threads that hold a guard of each mutex.  A call of `lock` that blocks
  holds its guard once its thread has been woken.
* `Guards.Exclusive`: what holds of one mutex; `Guards.Inv.step`: every step keeps it.
* `Guards.reachable_exclusion`: **at most one thread holds a mutex**, and a drop hands it to the
  waiter with the least captured deadline.
-/

namespace Rtsched

open Outcome

variable {α : Type}

/-- The step drops the guard of the mutex. -/
def Event.isUnlock (i : ℕ) : Event α → Bool
  | .unlock j => j = i
  | _ => false

/-- The step takes the mutex, if it succeeds at once. -/
def Event.isLock (i : ℕ) : Event α → Bool
  | .tryLock j | .lock j _ => j = i
  | _ => false

/-- A kernel with the threads that hold a guard of each mutex; `captured` is the deadline each
thread had when it last blocked in `lock`. -/
structure Guards (α : Type) where
  kernel : Kernel α
  holders : ℕ → List Tid
  captured : Tid → ℕ

namespace Guards

variable {c c' : Guards α} {i : ℕ} {ev : Event α} {k' : Kernel α} {reply : Reply α}

/-- The captured deadlines after a step. -/
def capture (c : Guards α) (ev : Event α) (reply : Reply α) (t : Tid) : ℕ :=
  match ev, reply with
  | .lock _ _, .blocked =>
      if c.kernel.sched.current = some t then c.kernel.sched.threadSchedulerExpireAt t
      else c.captured t
  | _, _ => c.captured t

/-- The guards that remain after a step. -/
def kept (c : Guards α) (ev : Event α) (i : ℕ) : List Tid :=
  if ev.isUnlock i then (c.holders i).filter fun t => c.kernel.sched.current ≠ some t
  else c.holders i

/-- The guard that a step returns at once. -/
def gained (c : Guards α) (ev : Event α) (reply : Reply α) (i : ℕ) : List Tid :=
  match reply with
  | .done => if ev.isLock i then c.kernel.sched.current.toList else []
  | _ => []

/-- The blocked calls whose thread has been woken by a step. -/
def resumed (c : Guards α) (k' : Kernel α) (i : ℕ) : List Tid :=
  (c.kernel.sched.waiters (.mutex i)).filter fun t => !(k'.sched.state t).isBlocked

/-- The history after a step. -/
def after (c : Guards α) (ev : Event α) (k' : Kernel α) (reply : Reply α) : Guards α where
  kernel := k'
  holders i := c.kept ev i ++ c.gained ev reply i ++ c.resumed k' i
  captured := c.capture ev reply

/-- One step. -/
def Step (c c' : Guards α) : Prop :=
  ∃ ev k' reply, c.kernel.Enabled ev ∧ c.kernel.exec ev = .ok (k', reply) ∧ c' = c.after ev k' reply

/-- At the start no thread holds a guard. -/
structure Initial (c : Guards α) : Prop where
  kernel : c.kernel.Initial
  holders : ∀ i, c.holders i = []

/-- The states of the runs with their history. -/
abbrev Reachable (c : Guards α) : Prop := Runs.Reach Initial Step c

/-- What holds of a mutex. -/
structure Exclusive (c : Guards α) (i : ℕ) : Prop where
  holders : c.holders i = (c.kernel.mutex i).owner.toList
  waiting : ∀ t ∈ c.kernel.sched.waiters (.mutex i), c.kernel.sched.state t = .suspended ∧
    (c.kernel.mutex i).owner ≠ some t
  free : (c.kernel.mutex i).owner = none → c.kernel.sched.waiters (.mutex i) = []
  captured : ∀ t ∈ c.kernel.sched.waiters (.mutex i), c.kernel.sched.deadlineAt t = c.captured t

structure Inv (c : Guards α) : Prop where
  kernel : c.kernel.Inv
  exclusive : ∀ i, c.Exclusive i

/-! ### The operations of other objects -/

lemma object_ne_of_mutex_ne (h : ev.mutex ≠ some i) : ev.object ≠ some (.mutex i) := by
  intro ho
  cases ev with
  | take j port => cases j <;> cases ho
  | give j => cases j <;> cases ho
  | lock j port => exact h (congrArg some (WaitObject.mutex.inj (Option.some.inj ho)))
  | unlock j => exact h (congrArg some (WaitObject.mutex.inj (Option.some.inj ho)))
  | _ => cases ho

lemma isUnlock_eq_false (h : ev.mutex ≠ some i) : ev.isUnlock i = false := by
  cases ev <;> simp_all [Event.isUnlock, Event.mutex]

lemma isLock_eq_false (h : ev.mutex ≠ some i) : ev.isLock i = false := by
  cases ev <;> simp_all [Event.isLock, Event.mutex]

lemma gained_eq_nil (h : ev.mutex ≠ some i) : c.gained ev reply i = [] := by
  unfold gained
  split
  · rw [isLock_eq_false h]
    rfl
  · rfl

/-- Only a lock that blocks captures a deadline, and it captures that of the current thread. -/
lemma capture_eq (h : c.Inv) (hen : c.kernel.Enabled ev) {t : Tid} {o : WaitObject}
    (ht : t ∈ c.kernel.sched.waiters o) : c.capture ev reply t = c.captured t := by
  unfold capture
  split
  · refine if_neg fun hc => ?_
    have hawake := h.kernel.sched.awake hen.1 t hc
    exact h.kernel.sched.notMem_waiters (ThreadState.ne_suspended hawake) o ht
  · rfl

/-- A step that is no operation of the mutex. -/
lemma Exclusive.of_ne (h : c.Inv) (hen : c.kernel.Enabled ev)
    (hrun : c.kernel.exec ev = .ok (k', reply)) (hi : ev.mutex ≠ some i) :
    (c.after ev k' reply).Exclusive i := by
  have hc := h.exclusive i
  have hinv' := (h.kernel.does hen hrun).inv h.kernel
  have howner := Kernel.owner_of_ne h.kernel.sched hen hrun hi
  have hmem := h.kernel.waiters_of_ne hen hrun (object_ne_of_mutex_ne hi) rfl
  refine ⟨?_, fun t ht => ⟨((hinv'.sched.ok t).waits _ ht).1, ?_⟩, fun hnone => ?_, fun t ht => ?_⟩
  · have hresumed : c.resumed k' i = [] :=
      Sched.filter_waiters_eq_nil hinv'.sched fun t ht => ((hmem t).1).mpr ht
    simp only [after, kept, isUnlock_eq_false hi, Bool.false_eq_true, if_false, gained_eq_nil hi,
      hresumed, List.append_nil, howner]
    exact hc.holders
  · change (k'.mutex i).owner ≠ some t
    rw [howner]
    exact (hc.waiting t (((hmem t).1).mp ht)).2
  · replace hnone : (k'.mutex i).owner = none := hnone
    rw [howner] at hnone
    refine List.eq_nil_iff_forall_not_mem.mpr fun t ht => ?_
    have hold := ((hmem t).1).mp ht
    rw [hc.free hnone] at hold
    cases hold
  · have hold := ((hmem t).1).mp ht
    change k'.sched.deadlineAt t = c.capture ev reply t
    rw [(hmem t).2 hold, capture_eq h hen hold]
    exact hc.captured t hold

/-! ### The operations of a mutex -/

/-- A step that leaves the scheduler alone resumes no thread. -/
lemma resumed_self (h : c.Inv) {m : MutexState} {j : ℕ} :
    c.resumed (c.kernel.setMutex j m) i = [] :=
  Sched.filter_waiters_eq_nil h.kernel.sched fun _ ht => ht

/-- A free mutex is taken. -/
lemma Exclusive.taken (h : c.Inv) (hev : ev = .tryLock i ∨ ∃ port, ev = .lock i port) {t : Tid}
    (hcur : c.kernel.sched.current = some t) (hfree : (c.kernel.mutex i).owner = none) :
    (c.after ev (c.kernel.setMutex i { c.kernel.mutex i with owner := some t }) .done).Exclusive
      i := by
  have hc := h.exclusive i
  have hnil := hc.free hfree
  have hlock : ev.isLock i = true := by
    rcases hev with rfl | ⟨port, rfl⟩ <;> simp [Event.isLock]
  have hunlock : ev.isUnlock i = false := by
    rcases hev with rfl | ⟨port, rfl⟩ <;> rfl
  have hno : ∀ u, u ∉ c.kernel.sched.waiters (.mutex i) := fun u hu => by
    rw [hnil] at hu
    cases hu
  refine ⟨?_, fun u hu => absurd hu (hno u), fun _ => hnil, fun u hu => absurd hu (hno u)⟩
  simp only [after, kept, gained, hlock, hunlock, hcur, resumed_self h, hc.holders, hfree,
    Kernel.setMutex_self, Bool.false_eq_true, if_false, if_true]
  rfl

/-- An operation that fails changes nothing. -/
lemma Exclusive.failed (h : c.Inv) (hev : ev = .tryLock i ∨ ∃ port, ev = .lock i port)
    (status : Status) : (c.after ev c.kernel (.err status)).Exclusive i := by
  have hc := h.exclusive i
  have hunlock : ev.isUnlock i = false := by
    rcases hev with rfl | ⟨port, rfl⟩ <;> rfl
  have hcapture : ∀ t, c.capture ev (.err status) t = c.captured t := by
    rcases hev with rfl | ⟨port, rfl⟩ <;> exact fun _ => rfl
  have hresumed : c.resumed c.kernel i = [] :=
    Sched.filter_waiters_eq_nil h.kernel.sched fun _ ht => ht
  refine ⟨?_, hc.waiting, hc.free, fun t ht => ?_⟩
  · simp only [after, kept, gained, hunlock, hresumed, Bool.false_eq_true, if_false,
      List.append_nil]
    exact hc.holders
  · change c.kernel.sched.deadlineAt t = c.capture ev (.err status) t
    rw [hcapture]
    exact hc.captured t ht

/-- A call of `lock` that blocks. -/
lemma Exclusive.parked (h : c.Inv) {port : TimerPort} (hen : c.kernel.Enabled (.lock i port))
    {t owner : Tid} {s : Sched} (howner : (c.kernel.mutex i).owner = some owner) (hne : owner ≠ t)
    (hact : Sched.Act (.blocks t (.mutex i) port.elapsedTicksSinceCurrentReload) c.kernel.sched s)
    (hadj : Kernel.Adjusts i { c.kernel with sched := s } k') :
    (c.after (.lock i port) k' .blocked).Exclusive i := by
  have hc := h.exclusive i
  have hs := hact.inv h.kernel.sched
  have hinv' := hadj.inv hs
  have hmem : ∀ u, u ∈ k'.sched.waiters (.mutex i) ↔
      u ∈ c.kernel.sched.waiters (.mutex i) ∨ (u = t ∧ WaitObject.mutex i = .mutex i) := by
    intro u
    rw [hadj.waiters]
    exact hact.mem_waiters h.kernel.sched u (.mutex i)
  have howner' : (k'.mutex i).owner = some owner := hadj.owner.trans howner
  refine ⟨?_, fun u hu => ⟨((hinv'.ok u).waits _ hu).1, ?_⟩, fun hnone => ?_, fun u hu => ?_⟩
  · have hresumed : c.resumed k' i = [] :=
      Sched.filter_waiters_eq_nil hinv' fun u hu => (hmem u).mpr (Or.inl hu)
    simp only [after, kept, gained, Event.isUnlock, hresumed, howner', Bool.false_eq_true, if_false,
      List.append_nil, hc.holders, howner]
  · change (k'.mutex i).owner ≠ some u
    rw [howner']
    rcases (hmem u).mp hu with hold | ⟨rfl, -⟩
    · rw [← howner]
      exact (hc.waiting u hold).2
    · exact fun heq => hne (Option.some.inj heq)
  · replace hnone : (k'.mutex i).owner = none := hnone
    rw [howner'] at hnone
    cases hnone
  · change k'.sched.deadlineAt u = c.capture (.lock i port) .blocked u
    rw [hadj.deadlineAt]
    change s.deadlineAt u = _
    by_cases hut : u = t
    · rw [hut, capture, if_pos hact.acting.current]
      exact hact.deadlineAt_blocks
    · have hold := ((hmem u).mp hu).resolve_right fun heq => hut heq.1
      have hu' : u ∈ s.waiters (.mutex i) :=
        (hact.mem_waiters h.kernel.sched u (.mutex i)).mpr (Or.inl hold)
      rw [capture_eq h hen hold, hact.deadlineAt_eq h.kernel.sched hold hu']
      exact hc.captured u hold

/-- The guards that remain when the owner drops its guard. -/
lemma kept_unlock (h : c.Inv) {t : Tid} (hcur : c.kernel.sched.current = some t)
    (howner : (c.kernel.mutex i).owner = some t) : c.kept (.unlock i) i = [] := by
  rw [kept, if_pos (by simp [Event.isUnlock]), (h.exclusive i).holders, howner, hcur]
  simp

/-- A drop without waiters. -/
lemma Exclusive.released (h : c.Inv) {t : Tid} {k₁ : Kernel α}
    (hcur : c.kernel.sched.current = some t) (howner : (c.kernel.mutex i).owner = some t)
    (hadj : Kernel.Adjusts i c.kernel k₁) (hnil : k₁.sched.waiters (.mutex i) = []) :
    (c.after (.unlock i) (k₁.setMutex i { k₁.mutex i with owner := none }) .done).Exclusive i := by
  have hold : c.kernel.sched.waiters (.mutex i) = [] := by rw [← hadj.waiters, hnil]
  have hno : ∀ u, u ∉ (k₁.setMutex i { k₁.mutex i with owner := none }).sched.waiters (.mutex i) :=
    fun u hu => by
      replace hu : u ∈ k₁.sched.waiters (.mutex i) := hu
      rw [hnil] at hu
      cases hu
  refine ⟨?_, fun u hu => absurd hu (hno u), fun _ => hnil, fun u hu => absurd hu (hno u)⟩
  simp only [after, kept_unlock h hcur howner, gained, Event.isLock, resumed, hold,
    Kernel.setMutex_self, Bool.false_eq_true, if_false]
  rfl

/-- A drop that hands the mutex to the first waiter. -/
lemma Exclusive.handed (h : c.Inv) {t u : Tid} {k₁ : Kernel α} {s : Sched}
    (hcur : c.kernel.sched.current = some t) (howner : (c.kernel.mutex i).owner = some t)
    (hadj : Kernel.Adjusts i c.kernel k₁) (hact : Sched.Act (.wakes u (.mutex i)) k₁.sched s) :
    (c.after (.unlock i) (Kernel.setMutex { k₁ with sched := s } i
      { k₁.mutex i with owner := some u }) .done).Exclusive i := by
  have hc := h.exclusive i
  have hs₁ := hadj.inv h.kernel.sched
  have hinv' := hact.inv hs₁
  have hmem : ∀ v, v ∈ s.waiters (.mutex i) ↔
      v ∈ c.kernel.sched.waiters (.mutex i) ∧ v ≠ u := by
    intro v
    rw [← hadj.waiters]
    exact hact.mem_waiters hs₁ v (.mutex i)
  have hone :
      ((c.kernel.sched.waiters (.mutex i)).filter fun v => !(s.state v).isBlocked) = [u] := by
    rw [← hadj.waiters]
    exact hact.filter_woken hs₁
  refine ⟨?_, fun v hv => ⟨((hinv'.ok v).waits _ hv).1, ?_⟩, fun hnone => ?_, fun v hv => ?_⟩
  · simp only [after, kept_unlock h hcur howner, gained, Event.isLock, Kernel.setMutex_self,
      Bool.false_eq_true, if_false]
    exact hone
  · rw [after, Kernel.setMutex_self]
    exact fun heq => ((hmem v).mp hv).2 (Option.some.inj heq).symm
  · rw [after, Kernel.setMutex_self] at hnone
    cases hnone
  · have hold := ((hmem v).mp hv).1
    have hv₁ : v ∈ k₁.sched.waiters (.mutex i) := by rwa [hadj.waiters]
    change s.deadlineAt v = c.captured v
    rw [hact.deadlineAt_eq hs₁ hv₁ hv, hadj.deadlineAt]
    exact hc.captured v hold

/-- **Every step keeps every mutex exclusive.** -/
theorem Inv.step (h : c.Inv) (hs : Step c c') : c'.Inv := by
  obtain ⟨ev, k', reply, hen, hrun, rfl⟩ := hs
  refine ⟨(h.kernel.does hen hrun).inv h.kernel, fun i => ?_⟩
  by_cases hi : ev.mutex = some i
  · cases (Kernel.exec_mutexOp h.kernel.sched hen hi).value hrun with
    | taken hev hcur hfree => exact .taken h hev hcur hfree
    | refused hev => exact .failed h hev _
    | parked howner hne hact hboost =>
        exact .parked h hen howner hne hact
          (Kernel.boostOwnerDeadline_adjusts (hact.inv h.kernel.sched) hboost)
    | released hcur howner hrestore hnil =>
        exact .released h hcur howner
          (Kernel.restoreOwnerDeadline_adjusts h.kernel.sched hrestore) hnil
    | handed hcur howner hrestore hact =>
        exact .handed h hcur howner
          (Kernel.restoreOwnerDeadline_adjusts h.kernel.sched hrestore) hact
  · exact .of_ne h hen hrun hi

lemma Initial.inv (h : c.Initial) : c.Inv := by
  obtain ⟨layout, periodTicks, execTicks, hboot⟩ := h.kernel.boot
  obtain ⟨-, -, -, -, -, hwaiters, -⟩ := Sched.boot_base hboot
  have hnil : ∀ o, c.kernel.sched.waiters o = [] := fun o => congrFun hwaiters o
  have hno : ∀ o u, u ∉ c.kernel.sched.waiters o := fun o u hu => by
    rw [hnil] at hu
    cases hu
  refine ⟨h.kernel.inv, fun i => ⟨?_, fun u hu => absurd hu (hno _ u), fun _ => hnil _,
    fun u hu => absurd hu (hno _ u)⟩⟩
  rw [h.holders, h.kernel.mutex_eq]
  rfl

lemma reachable_inv (h : c.Reachable) : c.Inv :=
  Runs.Reach.invariant (fun _ hi => hi.inv) (fun _ _ hc hs => hc.step hs) h

/-! ### Handing a mutex over -/

/-- The waiter with the least captured deadline. -/
abbrev First (c : Guards α) (i : ℕ) (t : Tid) : Prop :=
  c.kernel.sched.FirstWaiter c.captured (.mutex i) t

lemma first_of_wakes (h : c.Inv) {k₁ : Kernel α} (hadj : Kernel.Adjusts i c.kernel k₁) {t : Tid}
    {s : Sched} (hact : Sched.Act (.wakes t (.mutex i)) k₁.sched s) : c.First i t := by
  have hfirst : k₁.sched.FirstWaiter c.captured (.mutex i) t := by
    refine hact.firstWaiter (hadj.inv h.kernel.sched) fun u hu => ?_
    rw [hadj.waiters] at hu
    rw [hadj.deadlineAt]
    exact (h.exclusive i).captured u hu
  rwa [Sched.FirstWaiter, hadj.waiters] at hfirst

/-- What a drop does. -/
lemma unlock_spec (h : c.Inv) (hen : c.kernel.Enabled (.unlock i))
    (hrun : c.kernel.exec (.unlock i) = .ok (k', reply)) :
    (c.kernel.sched.waiters (.mutex i) = [] → (k'.mutex i).owner = none) ∧
    (c.kernel.sched.waiters (.mutex i) ≠ [] → ∃ t, c.First i t ∧ (k'.mutex i).owner = some t ∧
      Sched.WakesOne (.mutex i) t c.kernel.sched k'.sched) := by
  have hs := h.kernel.sched
  have hstep := (Kernel.exec_mutexOp hs hen rfl).value hrun
  generalize hev : Event.unlock i = ev at hstep
  cases hstep with
  | taken hev' _ _ => rcases hev' with rfl | ⟨port, rfl⟩ <;> cases hev
  | refused hev' => rcases hev' with rfl | ⟨port, rfl⟩ <;> cases hev
  | parked _ _ _ _ => cases hev
  | released _ _ hrestore hnil =>
      have hadj := Kernel.restoreOwnerDeadline_adjusts hs hrestore
      rw [hadj.waiters] at hnil
      refine ⟨fun _ => ?_, fun hne => absurd hnil hne⟩
      simp only [Function.update_self]
  | @handed t u k₁ s _ _ hrestore hact =>
      have hadj := Kernel.restoreOwnerDeadline_adjusts hs hrestore
      refine ⟨fun hnil => ?_, fun _ => ⟨u, first_of_wakes h hadj hact, ?_, ?_⟩⟩
      · have hhead := hact.head?_wakes
        rw [hadj.waiters, hnil] at hhead
        cases hhead
      · simp only [Function.update_self]
      · exact (hact.wakesOne (hadj.inv hs)).congr hadj.state hadj.waiters

/-- A waiter stays parked until the mutex is handed to it. -/
lemma waiter_spec (h : c.Inv) (hen : c.kernel.Enabled ev)
    (hrun : c.kernel.exec ev = .ok (k', reply)) {t : Tid}
    (ht : t ∈ c.kernel.sched.waiters (.mutex i)) :
    (t ∈ k'.sched.waiters (.mutex i) ∧ k'.sched.state t = .suspended) ∨
      (ev = .unlock i ∧ c.First i t ∧ (k'.mutex i).owner = some t ∧
        k'.sched.state t = .ready) := by
  have hs := h.kernel.sched
  have hinv' := (h.kernel.does hen hrun).inv h.kernel
  have hstays : t ∈ k'.sched.waiters (.mutex i) →
      t ∈ k'.sched.waiters (.mutex i) ∧ k'.sched.state t = .suspended :=
    fun ht' => ⟨ht', ((hinv'.sched.ok t).waits _ ht').1⟩
  by_cases hi : ev.mutex = some i
  · cases (Kernel.exec_mutexOp hs hen hi).value hrun with
    | taken _ _ _ => exact Or.inl (hstays ht)
    | refused _ => exact Or.inl (hstays ht)
    | parked _ _ hact hboost =>
        have hadj := Kernel.boostOwnerDeadline_adjusts (hact.inv hs) hboost
        refine Or.inl (hstays ?_)
        rw [hadj.waiters]
        exact (hact.mem_waiters hs t _).mpr (Or.inl ht)
    | released _ _ hrestore hnil =>
        have hadj := Kernel.restoreOwnerDeadline_adjusts hs hrestore
        rw [← hadj.waiters, hnil] at ht
        cases ht
    | @handed _ u k₁ s _ _ hrestore hact =>
        have hadj := Kernel.restoreOwnerDeadline_adjusts hs hrestore
        by_cases htu : t = u
        · subst htu
          refine Or.inr ⟨rfl, first_of_wakes h hadj hact, ?_, ?_⟩
          · simp only [Function.update_self]
          · change s.state t = .ready
            rw [hact.state_wakes, if_pos rfl]
        · refine Or.inl (hstays ?_)
          change t ∈ s.waiters (.mutex i)
          rw [← hadj.waiters] at ht
          exact (hact.mem_waiters (hadj.inv hs) t _).mpr ⟨ht, htu⟩
  · exact Or.inl (hstays
      ((h.kernel.waiters_of_ne hen hrun (object_ne_of_mutex_ne hi) rfl t).1.mpr ht))

/-- A call of `lock` that blocks registers its thread. -/
lemma lock_spec (h : c.Inv) {port : TimerPort} (hen : c.kernel.Enabled (.lock i port))
    (hrun : c.kernel.exec (.lock i port) = .ok (k', .blocked)) :
    ∃ t, c.kernel.sched.current = some t ∧ t ∈ k'.sched.waiters (.mutex i) := by
  have hs := h.kernel.sched
  have hstep := (Kernel.exec_mutexOp hs hen rfl).value hrun
  generalize hev : Event.lock i port = ev at hstep
  cases hstep with
  | @parked _ t _ _ _ _ _ hact hboost =>
      have hadj := Kernel.boostOwnerDeadline_adjusts (hact.inv hs) hboost
      refine ⟨t, hact.acting.current, ?_⟩
      rw [hadj.waiters]
      exact (hact.mem_waiters hs t _).mpr (Or.inr ⟨rfl, rfl⟩)

/-- The guards of a thread are the mutexes it may drop. -/
lemma mem_holders_iff (h : c.Inv) (hmode : c.kernel.ThreadMode) {t : Tid}
    (hcur : c.kernel.sched.current = some t) :
    t ∈ c.holders i ↔ c.kernel.Enabled (.unlock i) := by
  have hiff : c.kernel.Enabled (.unlock i) ↔ c.kernel.ThreadMode ∧
      (c.kernel.mutex i).owner.isSome ∧ (c.kernel.mutex i).owner = c.kernel.sched.current := Iff.rfl
  rw [(h.exclusive i).holders, hiff, hcur, Option.mem_toList]
  refine ⟨fun ht => ⟨hmode, ?_, ht⟩, fun ht => ht.2.2⟩
  rw [show (c.kernel.mutex i).owner = some t from ht]
  rfl

/-- **Mutual exclusion and hand-off.**  In every run the guards of a mutex are those of its owner,
which is at most one thread; every waiter is suspended and is not the owner; a mutex without owner
has no waiter.  A drop hands the mutex to the waiter with the least captured deadline and makes it
ready, or frees the mutex if there is none; a waiter stays registered and suspended until then. -/
theorem reachable_exclusion (h : c.Reachable) (i : ℕ) :
    c.Exclusive i ∧
    (∀ t, c.kernel.ThreadMode → c.kernel.sched.current = some t →
      (t ∈ c.holders i ↔ c.kernel.Enabled (.unlock i))) ∧
    (∀ k' reply, c.kernel.Enabled (.unlock i) → c.kernel.exec (.unlock i) = .ok (k', reply) →
      (c.kernel.sched.waiters (.mutex i) = [] → (k'.mutex i).owner = none) ∧
      (c.kernel.sched.waiters (.mutex i) ≠ [] → ∃ t, c.First i t ∧
        (k'.mutex i).owner = some t ∧
        Sched.WakesOne (.mutex i) t c.kernel.sched k'.sched)) ∧
    (∀ port k', c.kernel.Enabled (.lock i port) →
      c.kernel.exec (.lock i port) = .ok (k', .blocked) →
      ∃ t, c.kernel.sched.current = some t ∧ t ∈ k'.sched.waiters (.mutex i)) ∧
    (∀ ev k' reply, c.kernel.Enabled ev → c.kernel.exec ev = .ok (k', reply) →
      ∀ t ∈ c.kernel.sched.waiters (.mutex i),
        (t ∈ k'.sched.waiters (.mutex i) ∧ k'.sched.state t = .suspended) ∨
          (ev = .unlock i ∧ c.First i t ∧ (k'.mutex i).owner = some t ∧
            k'.sched.state t = .ready)) := by
  have hinv := reachable_inv h
  exact ⟨hinv.exclusive i, fun _ hmode hcur => mem_holders_iff hinv hmode hcur,
    fun _ _ hen hrun => unlock_spec hinv hen hrun, fun _ _ hen hrun => lock_spec hinv hen hrun,
    fun _ _ _ hen hrun _ ht => waiter_spec hinv hen hrun ht⟩

/-! ### A hand-over -/

/-- The state after a step. -/
def next (c : Guards α) (ev : Event α) : Option (Guards α) :=
  if c.kernel.Enabled ev then
    match c.kernel.exec ev with
    | .ok (k', reply) => some (c.after ev k' reply)
    | .error _ => none
  else none

lemma next_step (h : c.next ev = some c') : Step c c' := by
  unfold next at h
  split at h
  · rename_i hen
    cases hrun : c.kernel.exec ev with
    | error f =>
        rw [hrun] at h
        cases h
    | ok r =>
        rw [hrun] at h
        exact ⟨ev, r.1, r.2, hen, hrun, (Option.some.inj h).symm⟩
  · cases h

/-- The run of given steps from boot. -/
def trial (evs : List (Event ℕ)) : Option (Guards ℕ) := do
  let k ← Kernel.trial Kernel.next []
  evs.foldlM next ⟨k, fun _ => [], fun _ => 0⟩

lemma trial_reachable {evs : List (Event ℕ)} {c : Guards ℕ} (h : trial evs = some c) :
    c.Reachable := by
  simp only [trial, Kernel.trial, List.foldlM_nil, Option.bind_eq_bind,
    Option.bind_eq_some_iff] at h
  obtain ⟨k, ⟨k₀, hboot, hk⟩, hrun⟩ := h
  obtain rfl := Option.some.inj hk
  exact Runs.Reach.foldlM (fun _ _ _ => next_step)
    (.start ⟨Kernel.booted_initial hboot, fun _ => rfl⟩) hrun

/-- A CFS thread holds a mutex that an RT thread waits for. -/
def contended : List (Event ℕ) :=
  [.spawnCfs 1 10, .spawnRt 2 ⟨900, 800, 100⟩, .start 0, .tick ⟨some 99, some 0⟩ 8,
    .schedule ⟨some 99, some 0⟩, .lock 0 ⟨some 399, some 389⟩, .tick ⟨some 399, some 0⟩ 8,
    .schedule ⟨some 399, some 0⟩, .lock 0 ⟨some 299, some 259⟩, .schedule ⟨some 299, some 259⟩]

theorem reachable_exclusion_contended : ∃ c, trial contended = some c ∧ c.Exclusive 0 ∧
    c.holders 0 = [1] ∧ (c.kernel.mutex 0).owner = some 1 ∧
    c.kernel.sched.waiters (.mutex 0) = [2] := by
  have htest : (trial contended).any (fun c => c.holders 0 == [1] &&
      (c.kernel.mutex 0).owner == some 1 && c.kernel.sched.waiters (.mutex 0) == [2]) = true := by
    decide +kernel
  obtain ⟨c, hc, htest⟩ := (Option.any_eq_true ..).mp htest
  simp only [Bool.and_eq_true, beq_iff_eq] at htest
  exact ⟨c, hc, (reachable_exclusion (trial_reachable hc) 0).1, htest.1.1, htest.1.2, htest.2⟩

end Guards

end Rtsched

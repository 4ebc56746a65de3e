import Rtsched.Kernel.Reach

/-!
When the deadline-miss panic is raised.

`is_real_rt_deadline_miss` compares the runtime of an RT thread with its relative deadline.  Besides
the thread itself, only blocking and timed wake-ups add to that runtime for longer than one step.

* `Spares M x Q`: the computation `x` does not end in an endless dispatch, nor in a deadline miss if
  `M`, and its value has `Q`.
* `KTimers.Rested M A q`: if `M`, the threads outside `A` have no runtime and those of `A` have no
  active timer; every function of the timers keeps this.
* `Kernel.exec_spares`: **only a tick can hang**, and no step misses a deadline of a thread that has
  not blocked.
* `Kernel.busy_never_misses`: **as long as no RT thread blocks and none sets its runtime, no
  deadline is ever missed**.
-/

namespace Rtsched

open Ordered Outcome

variable {β : Type} {M : Prop}

/-- The fault is not an endless dispatch, and no deadline miss if `M`. -/
@[simp] def Fault.Spared (M : Prop) (f : Fault) : Prop := f ≠ .hang ∧ (M → f ≠ .deadlineMiss)

/-- The computation ends in such a fault, or its value has `Q`. -/
abbrev Spares (M : Prop) (x : Except Fault β) (Q : β → Prop) : Prop := Ends (Fault.Spared M) x Q

/-! ### Trees and timers -/

section Tree

variable {γ : Type} [DecidableEq γ]

lemma link_spares (cmp : γ → γ → Ordering) (x : γ) (l : List γ) :
    Spares M (link cmp x l) fun l' => ∀ y ∈ l', y = x ∨ y ∈ l := by
  unfold link
  split
  · simp
  · exact fun y hy => mem_ordInsert.mp hy

lemma unlink_spares (x : γ) (l : List γ) : Spares M (unlink x l) fun l' => ∀ y ∈ l', y ∈ l := by
  unfold unlink
  split
  · exact fun y hy => List.mem_of_mem_erase hy
  · simp

end Tree

namespace KTimers

variable {q q' : KTimers} {k : Timer} {A A' : Tid → Prop}

/-- If `M`, the threads outside `A` have no runtime, and those of `A` have no active timer. -/
structure Rested (M : Prop) (A : Tid → Prop) (q : KTimers) : Prop where
  runtime : M → ∀ t, ¬ A t → q.runtime t = 0
  parked : M → ∀ t, A t → .rt t ∉ q.active

/-- The timer is not that of a thread of `A`. -/
def Apart (A : Tid → Prop) (k : Timer) : Prop := ∀ t, k = .rt t → ¬ A t

namespace Rested

lemma congr (h : Rested M A q) (hA : ∀ t, A' t ↔ A t) : Rested M A' q :=
  ⟨fun hM t ht => h.runtime hM t (mt (hA t).mpr ht), fun hM t ht => h.parked hM t ((hA t).mp ht)⟩

/-- The timers that have become active are those of other threads. -/
lemma of_active (h : Rested M A q) (hr : M → ∀ t, ¬ A t → q'.runtime t = q.runtime t)
    (hact : M → ∀ j ∈ q'.active, j ∈ q.active ∨ Apart A j) : Rested M A q' := by
  refine ⟨fun hM t ht => (hr hM t ht).trans (h.runtime hM t ht), fun hM t ht hmem => ?_⟩
  rcases hact hM _ hmem with hold | hapart
  · exact h.parked hM t ht hold
  · exact hapart t rfl ht

lemma apart (h : Rested M A q) (hM : M) (hk : k ∈ q.active) : Apart A k := by
  rintro t rfl ht
  exact h.parked hM t ht hk

lemma setEntity (h : Rested M A q) (e : KTimerEntity) : Rested M A (q.setEntity k e) :=
  ⟨h.runtime, h.parked⟩

lemma setRuntime (h : Rested M A q) {n : ℕ} (hn : M → n = 0) (t : Tid) :
    Rested M A (q.setRuntime t n) := by
  refine h.of_active (fun hM u hu => ?_) fun _ j hj => Or.inl hj
  change Function.update q.runtime t n u = _
  by_cases hut : u = t
  · rw [hut, Function.update_self, hn hM, h.runtime hM t (hut ▸ hu)]
  · rw [Function.update_of_ne hut]

lemma rearmRt (h : Rested M A q) (t : Tid) : Rested M A (q.rearmRt t) :=
  (h.setRuntime (fun _ => rfl) t).setEntity _

end Rested

lemma remove_rested (h : Rested M A q) : Spares M (q.remove k) (Rested M A) := by
  unfold remove
  split
  · exact (unlink_spares ..).bind fun l hl =>
      h.of_active (fun _ _ _ => rfl) fun _ j hj => Or.inl (hl j hj)
  · exact (unlink_spares ..).bind fun _ _ => ⟨h.runtime, h.parked⟩

lemma insert_rested (h : Rested M A q) (a : Bool) (hk : M → a = true → Apart A k) :
    Spares M (q.insert k a) (Rested M A) := by
  unfold insert
  split
  · simp
  · split
    · rename_i ha
      refine (link_spares ..).bind fun l hl => ?_
      have hlinked : Rested M A { q with active := l } := by
        refine h.of_active (fun _ _ _ => rfl) fun hM j hj => ?_
        rcases hl j hj with rfl | hold
        · exact Or.inr (hk hM ha)
        · exact Or.inl hold
      exact hlinked.setEntity _
    · exact (link_spares ..).bind fun _ _ => ⟨h.runtime, h.parked⟩

/-- A timer that is re-armed has missed no deadline if its thread has no runtime. -/
lemma rearmActive_rested (h : Rested M A q) (hk : M → Apart A k) :
    Spares M (q.rearmActive k) (Rested M A) := by
  unfold rearmActive
  split
  · exact h.setEntity _
  · simp
  · rename_i t
    split
    · rename_i hmiss
      refine ⟨by simp, fun hM _ => ?_⟩
      have hzero := h.runtime hM t (hk hM t rfl)
      rw [isRealRtDeadlineMiss, hzero] at hmiss
      simp at hmiss
    · exact h.rearmRt t

lemma refreshNextKtimer_rested (h : Rested M A q) :
    Spares M q.refreshNextKtimer (Rested M A) := by
  unfold refreshNextKtimer
  split
  · exact ⟨h.runtime, h.parked⟩
  · rename_i k hk
    have hapart : M → Apart A k := fun hM => h.apart hM (List.mem_of_mem_head? hk)
    split
    · exact (remove_rested h).bind fun _ h₁ => (rearmActive_rested h₁ hapart).bind fun _ h₂ =>
        (insert_rested h₂ true fun hM _ => hapart hM).bind fun _ h₃ => ⟨h₃.runtime, h₃.parked⟩
    · exact ⟨h.runtime, h.parked⟩

lemma enqueueKtimer_rested (h : Rested M A q) (hk : M → Apart A k) :
    Spares M (q.enqueueKtimer k) (Rested M A) :=
  (insert_rested h true fun hM _ => hk hM).bind fun _ h₁ => refreshNextKtimer_rested h₁

lemma removeKtimer_rested (h : Rested M A q) : Spares M (q.removeKtimer k) (Rested M A) := by
  have hdequeue : Spares M (q.dequeue k) (Rested M A) :=
    (remove_rested h).bind fun _ h₁ => h₁.setEntity _
  refine hdequeue.bind fun q₁ h₁ => ?_
  split
  · exact refreshNextKtimer_rested h₁
  · exact h₁

lemma programWaitKtimer_rested (h : Rested M A q) (firstWait : Option ℕ) :
    Spares M (q.programWaitKtimer firstWait) (Rested M A) := by
  refine Ends.bind (P := Rested M A) ?_ fun _ h₁ => refreshNextKtimer_rested h₁
  split
  · exact (remove_rested h).bind fun _ h₁ => insert_rested (h₁.setEntity _) false (by simp)
  · exact h

lemma setSchedulerExpireAt_rested (h : Rested M A q) (hk : M → Apart A k) (expireAt : ℕ) :
    Spares M (q.setSchedulerExpireAt k expireAt) (Rested M A) := by
  unfold setSchedulerExpireAt
  simp only
  split
  · exact (remove_rested h).bind fun _ h₁ =>
      (insert_rested (h₁.setEntity _) _ fun hM _ => hk hM).bind fun _ h₂ =>
        refreshNextKtimer_rested h₂
  · split
    · exact refreshNextKtimer_rested (h.setEntity _)
    · exact h.setEntity _

/-- An RT thread that yields its timer without finishing its job keeps its runtime. -/
lemma yieldKtimer_rested (hq : q.Wf) (hk : q.Linked k) (hw : k ≠ .wait)
    (h : Rested M (fun _ => False) q) (elapsed : ℕ) (reset : Bool) :
    Spares M (q.yieldKtimer k elapsed reset)
      (Rested M fun t => k = .rt t ∧ reset = false) := by
  obtain ⟨q', hrun, hwf, hframe, hin, -, -, hrt⟩ := yieldKtimer_spec hq hk hw elapsed reset
  rw [hrun]
  refine ⟨fun hM t ht => ?_, fun _ t ht hact => hwf.notMem_inactive hact (ht.1 ▸ hin)⟩
  by_cases hkt : k = .rt t
  · obtain ⟨-, hzero⟩ := hrt t hkt
    rw [hzero, if_pos (by simpa [hkt] using ht)]
  · rcases hframe.rearmed (.rt t) (Ne.symm hkt) with hsame | hnew
    · have hkeep : q'.runtime t = q.runtime t := hsame.runtime
      exact hkeep.trans (h.runtime hM t id)
    · exact hnew.runtime

end KTimers

/-! ### The run queue -/

namespace RunQueue

variable {r : RunQueue} {t : Tid}

lemma cfsSchedTicks_spares (vruntime priority prioritySum : ℕ) :
    Spares M (cfsSchedTicksFromVruntime vruntime priority prioritySum) fun _ => True := by
  unfold cfsSchedTicksFromVruntime
  split
  · simp
  · split
    · trivial
    · split <;> simp

lemma insert_spares : Spares M (r.insert t) fun _ => True :=
  (link_spares ..).bind fun _ _ => trivial

lemma updateFromLeftmost_spares : Spares M (r.updateFromLeftmost t) fun _ => True := by
  unfold updateFromLeftmost
  split
  · trivial
  · exact (cfsSchedTicks_spares ..).bind fun _ _ => trivial

lemma enqueueThread_spares : Spares M (r.enqueueThread t) fun _ => True := by
  unfold enqueueThread
  split
  · simp
  · refine updateFromLeftmost_spares.bind fun _ _ => insert_spares.bind fun _ _ => ?_
    split <;> simp

lemma rebuild_spares (popped : List Tid) : Spares M (r.rebuild popped) fun _ => True := by
  induction popped generalizing r with
  | nil => trivial
  | cons u popped ih =>
      exact (cfsSchedTicks_spares ..).bind fun _ _ => insert_spares.bind fun _ _ => ih

lemma enqueueFromWaitq_spares : Spares M (r.enqueueFromWaitq t) fun _ => True := by
  unfold enqueueFromWaitq
  split
  · simp
  · exact (rebuild_spares _).bind fun _ _ => updateFromLeftmost_spares.bind fun _ _ =>
      insert_spares

end RunQueue

/-! ### The scheduler -/

namespace Sched

variable {s : Sched} {t : Tid} {A : Tid → Prop}

abbrev Rested (M : Prop) (A : Tid → Prop) (s : Sched) : Prop := s.ktimers.Rested M A

lemma setState_spares (x : ThreadState) :
    Spares M (s.setState t x) fun s' => s' = { s with state := Function.update s.state t x } := by
  unfold setState
  split
  · rfl
  · simp

lemma programWaitKtimer_rested (h : s.Rested M A) : Spares M s.programWaitKtimer (Rested M A) :=
  (KTimers.programWaitKtimer_rested h _).bind fun _ h₁ => h₁

lemma insertWaitThread_rested (h : s.Rested M A) :
    Spares M (s.insertWaitThread t) (Rested M A) := by
  unfold insertWaitThread
  split
  · simp
  · split
    · refine (setState_spares _).bind ?_
      rintro _ rfl
      split
      · simp
      · exact h
    · refine (setState_spares _).bind ?_
      rintro _ rfl
      exact (link_spares ..).bind fun _ _ => h

lemma removeWaitThread_spares :
    Spares M (s.removeWaitThread t) fun s' => s'.ktimers = s.ktimers := by
  unfold removeWaitThread
  split
  · simp
  · split
    · exact (unlink_spares ..).bind fun _ _ => rfl
    · exact (unlink_spares ..).bind fun _ _ => rfl

lemma dequeueRunqToWaitq_rested (h : s.Rested M A) :
    Spares M (s.dequeueRunqToWaitq t) (Rested M A) := by
  unfold dequeueRunqToWaitq
  split
  · simp
  · refine Ends.bind (P := Rested M A) ?_ fun s₁ h₁ => ?_
    · split
      · exact ((unlink_spares ..).bind fun _ _ => trivial : Spares M (s.runq.remove t)
          fun _ => True).bind fun _ _ => h
      · exact h
    · exact (insertWaitThread_rested h₁).bind fun s₂ h₂ =>
        programWaitKtimer_rested (s := { s₂ with runq := s₂.runq.dropPriority t }) h₂

lemma dequeueKtimerqToWaitq_rested (h : s.Rested M A) :
    Spares M (s.dequeueKtimerqToWaitq t) (Rested M A) := by
  unfold dequeueKtimerqToWaitq
  split
  · exact h
  · exact (KTimers.removeKtimer_rested h).bind fun q h₁ =>
      (insertWaitThread_rested (s := { s with ktimers := q }) h₁).bind fun _ h₂ =>
        programWaitKtimer_rested h₂

/-- Waking a CFS thread leaves the timers and the wait queue alone. -/
lemma enqueueRunqFromWaitq_spares : Spares M (s.enqueueRunqFromWaitq t) fun s' =>
    ∃ σ r, s' = { s with state := σ, runq := r } := by
  unfold enqueueRunqFromWaitq
  split
  · simp
  · split
    · simp
    · refine (setState_spares _).bind ?_
      rintro _ rfl
      exact RunQueue.enqueueFromWaitq_spares.bind fun r _ => ⟨_, r, rfl⟩

lemma wakeWaiter_rested (h : s.Rested M fun _ => False) :
    Spares M (s.wakeWaiter t) (Rested M fun _ => False) := by
  unfold wakeWaiter
  split
  · refine removeWaitThread_spares.bind fun s₁ h₁ => enqueueRunqFromWaitq_spares.bind ?_
    rintro _ ⟨σ, r, rfl⟩
    refine programWaitKtimer_rested (s := { s₁ with state := σ, runq := r }) ?_
    change s₁.ktimers.Rested M _
    rwa [h₁]
  · unfold enqueueKtimerqFromWaitq
    split
    · exact h
    · refine removeWaitThread_spares.bind fun s₁ h₁ => (setState_spares _).bind ?_
      rintro _ rfl
      have h₂ : s₁.ktimers.Rested M fun _ => False := by rwa [h₁]
      exact (KTimers.enqueueKtimer_rested h₂ fun _ _ _ => id).bind fun q h₃ =>
        programWaitKtimer_rested (s := { s₁ with ktimers := q, state := _ }) h₃
  · exact h

lemma wakeFirst_rested (h : s.Rested M fun _ => False) (o : WaitObject) :
    Spares M (s.wakeFirst o) fun r => r.1.Rested M fun _ => False := by
  refine Ends.bind (P := fun r => r.1.Rested M fun _ => False) ?_ fun r hr => ?_
  · unfold popWaitingThread
    split
    · exact h
    · split
      · exact h
      · simp
  · refine Ends.bind (P := Rested M fun _ => False) ?_ fun _ h₁ => h₁
    unfold wake
    split
    · exact hr
    · exact (wakeWaiter_rested hr).bind fun _ h₁ => h₁

lemma setThreadSchedulerExpireAt_rested (h : s.Rested M A)
    (hk : M → ∀ k, s.threadSchedulerKtimer t = some k → KTimers.Apart A k) (expireAt : ℕ) :
    Spares M (s.setThreadSchedulerExpireAt t expireAt) fun s' =>
      ∃ q : KTimers, s' = { s with ktimers := q } ∧ q.Rested M A := by
  unfold setThreadSchedulerExpireAt
  split
  · exact ⟨s.ktimers, rfl, h⟩
  · rename_i k hkt
    exact (KTimers.setSchedulerExpireAt_rested h (fun hM => hk hM k hkt) _).bind
      fun q hq => ⟨q, rfl, hq⟩

/-- A thread other than the parked one has another timer. -/
lemma apart_of_ne {u : Tid} {P : Prop} {k : Timer} (hut : u ≠ t)
    (hk : s.threadSchedulerKtimer u = some k) : KTimers.Apart (fun v => v = t ∧ P) k := by
  rintro v rfl ⟨rfl, -⟩
  unfold threadSchedulerKtimer at hk
  split at hk
  · cases hk
  · exact hut (Timer.rt.inj (Option.some.inj hk))
  · cases hk

/-! ### The current thread -/

/-- The idle thread is scheduled by no timer. -/
lemma kind_ne_idle {k : Timer} (hk : s.threadSchedulerKtimer t = some k) : s.kind t ≠ .idle := by
  intro hidle
  simp [threadSchedulerKtimer, hidle] at hk

/-- Of the threads, only the RT thread `t` keeps its runtime when it parks. -/
lemma yield_rested (h : s.Inv) (hr : s.Rested M fun _ => False)
    (hx : (s.state t).isBlocked = false) {k : Timer} (hk : s.threadSchedulerKtimer t = some k)
    (elapsed : ℕ) :
    Spares M (s.ktimers.yieldKtimer k elapsed false)
      (KTimers.Rested M fun u => u = t ∧ s.kind t = .rt) := by
  obtain ⟨j, hj, hlinked, hw, hkt⟩ :=
    threadSchedulerKtimer_spec h.cfs (h.ok t) (kind_ne_idle hk) hx
  obtain rfl : j = k := Option.some.inj (hj.symm.trans hk)
  refine (KTimers.yieldKtimer_rested h.tidy.ktimers hlinked hw hr elapsed false).imp
    fun q hq => hq.congr fun u => ?_
  rcases hkt with ⟨hcfs, rfl⟩ | ⟨hrt, rfl⟩
  · simp [hcfs]
  · simp [hrt, eq_comm]

lemma blockCurrentThreadOn_rested (h : s.Inv) (hr : s.Rested M fun _ => False)
    (hx : (s.state t).isBlocked = false) (o : WaitObject) (port : TimerPort) :
    Spares M (s.blockCurrentThreadOn o t port) fun r =>
      ∀ p ∈ r, p.1.Rested M fun u => u = t ∧ s.kind t = .rt := by
  refine Ends.bind (P := fun r => ∀ p ∈ r, p.1.Rested M fun u => u = t ∧ s.kind t = .rt) ?_
    fun r hr' => ?_
  · unfold blockCurrentThread
    split
    · simp
    · split
      · simp
      · rename_i k hk
        refine (yield_rested h hr hx hk _).bind fun q hq => ?_
        refine Ends.bind (P := Rested M fun u => u = t ∧ s.kind t = .rt) ?_ fun s₁ h₁ => by
          simpa using h₁
        split
        · exact dequeueRunqToWaitq_rested (s := setWaitEntity { s with ktimers := q } t _) hq
        · exact dequeueKtimerqToWaitq_rested (s := setWaitEntity { s with ktimers := q } t _) hq
  · split
    · simp
    · rename_i s₁ d
      have h₁ := hr' _ rfl
      refine Ends.bind (P := Rested M fun u => u = t ∧ s.kind t = .rt) ?_ fun s₂ h₂ => ?_
      · exact (link_spares ..).bind fun _ _ => h₁
      · rintro _ ⟨⟩
        exact h₂

lemma msleepyi_rested (h : s.Inv) (hr : s.Rested M fun _ => False) (hcur : s.current = some t)
    (hx : (s.state t).isBlocked = false) (port : TimerPort) (ticksPerMs msec : ℕ) :
    Spares M (s.msleepyi port ticksPerMs msec) (Rested M fun u => u = t ∧ s.kind t = .rt) := by
  unfold msleepyi
  rw [hcur]
  dsimp only
  unfold msleepThread
  split
  · rename_i hk
    refine hr.congr fun u => iff_of_false ?_ id
    rintro ⟨-, hrt⟩
    simp [threadSchedulerKtimer, hrt] at hk
  · rename_i k hk
    refine (yield_rested h hr hx hk _).bind fun q hq => ?_
    refine Ends.bind (P := Rested M fun u => u = t ∧ s.kind t = .rt) ?_ fun _ h₁ => h₁
    split
    · exact dequeueRunqToWaitq_rested (s := setWaitEntity { s with ktimers := q } t _) hq
    · exact dequeueKtimerqToWaitq_rested (s := setWaitEntity { s with ktimers := q } t _) hq

/-- A thread that yields has finished its job. -/
lemma yieldyi_rested (h : s.Inv) (hr : s.Rested M fun _ => False) (hcur : s.current = some t)
    (hx : (s.state t).isBlocked = false) (port : TimerPort) :
    Spares M (s.yieldyi port) (Rested M fun _ => False) := by
  unfold yieldyi
  rw [hcur]
  dsimp only
  unfold yieldThread
  split
  · exact hr
  · rename_i k hk
    obtain ⟨j, hj, hlinked, hw, -⟩ :=
      threadSchedulerKtimer_spec h.cfs (h.ok t) (kind_ne_idle hk) hx
    obtain rfl : j = k := Option.some.inj (hj.symm.trans hk)
    refine (KTimers.yieldKtimer_rested h.tidy.ktimers hlinked hw hr _ true).bind fun q hq => ?_
    have hq' : q.Rested M fun _ => False := hq.congr fun u => by simp
    exact ⟨hq'.runtime, hq'.parked⟩

/-! ### Ticks -/

/-- No thread has a runtime, and no RT thread is asleep. -/
structure Busy (s : Sched) : Prop where
  rested : s.Rested True fun _ => False
  sleeps : ∀ t ∈ s.waitq.tree, s.kind t ≠ .rt

lemma Busy.ktimers (h : s.Busy) {q : KTimers} (hq : q.Rested True fun _ => False) :
    Busy { s with ktimers := q } :=
  ⟨hq, h.sleeps⟩

lemma wakeTimed_busy (h : s.Busy) (hkind : s.kind t ≠ .rt) (elapsed : ℕ) :
    Spares True (s.wakeTimed t elapsed) Busy := by
  unfold wakeTimed
  split
  · refine enqueueRunqFromWaitq_spares.imp ?_
    rintro _ ⟨σ, r, rfl⟩
    exact ⟨h.rested, h.sleeps⟩
  · rename_i hrt
    exact absurd hrt hkind
  · exact h

lemma wakeWaitThread_busy (elapsed n : ℕ) (h : s.Busy) :
    Spares True (wakeWaitThread elapsed n s) Busy := by
  induction n generalizing s with
  | zero => exact h
  | succ n ih =>
      unfold wakeWaitThread
      split
      · exact h
      · rename_i u l htree
        split
        · refine (setState_spares _).bind ?_
          rintro _ rfl
          have hsleeps : ∀ v ∈ u :: l, s.kind v ≠ .rt := htree ▸ h.sleeps
          have hpopped : Busy { s with waitq := { s.waitq with tree := l },
                                       state := Function.update s.state u .ready } :=
            ⟨h.rested, fun v hv => hsleeps v (List.mem_cons_of_mem _ hv)⟩
          exact (wakeTimed_busy hpopped (hsleeps u List.mem_cons_self) elapsed).bind
            fun _ h₁ => ih h₁
        · exact h

lemma dispatchTimer_busy (h : s.Busy) (k : Timer) (elapsed : ℕ) :
    Spares True (s.dispatchTimer k elapsed) Busy := by
  unfold dispatchTimer
  split
  · exact (wakeWaitThread_busy elapsed _ h).bind fun s₁ h₁ =>
      (KTimers.insert_rested (h₁.rested.setEntity _) false (by simp)).bind fun q hq =>
        h₁.ktimers hq
  · refine Ends.bind (P := KTimers.Rested True fun _ => False) ?_ fun q hq => h.ktimers hq
    split
    · exact KTimers.insert_rested (h.rested.setEntity _) false (by simp)
    · exact KTimers.insert_rested (h.rested.setEntity _) true fun _ _ _ _ => id
  · rename_i u
    split
    · rename_i hmiss
      have hzero := h.rested.runtime trivial u id
      rw [KTimers.isRealRtDeadlineMiss, hzero] at hmiss
      simp at hmiss
    · exact (KTimers.insert_rested (h.rested.rearmRt u) true fun _ _ _ _ => id).bind
        fun q hq => h.ktimers hq

/-- The dispatch may not end, but it misses no deadline. -/
lemma dispatchExpired_busy (elapsed n : ℕ) (h : s.Busy) :
    Ends (· ≠ .deadlineMiss) (dispatchExpired elapsed n s) Busy := by
  induction n generalizing s with
  | zero => simp [dispatchExpired]
  | succ n ih =>
      unfold dispatchExpired
      split
      · exact h
      · rename_i k _
        split
        · have hspared : ∀ f : Fault, f.Spared True → f ≠ .deadlineMiss := fun f hf =>
            hf.2 trivial
          exact ((KTimers.remove_rested h.rested).weaken hspared).bind fun q hq =>
            ((dispatchTimer_busy (h.ktimers hq) k elapsed).weaken hspared).bind fun _ h₁ => ih h₁
        · exact h

lemma handleSchedTick_busy (h : s.Busy) (port : TimerPort) (fuel : ℕ) :
    Ends (· ≠ .deadlineMiss) (s.handleSchedTick port fuel) Busy := by
  unfold handleSchedTick
  split
  · refine (dispatchExpired_busy _ fuel (h.ktimers ?_)).bind fun s₁ h₁ => ?_
    · exact ⟨h.rested.runtime, h.rested.parked⟩
    · exact ⟨⟨h₁.rested.runtime, h₁.rested.parked⟩, h₁.sleeps⟩
  · exact h

/-! ### Creating threads -/

lemma spawnCfs_rested (h : s.Rested M A) (priority : ℕ) :
    Spares M (s.spawnCfs t priority) (Rested M A) := by
  unfold spawnCfs
  split
  · simp
  · refine (setState_spares _).bind ?_
    rintro _ rfl
    exact RunQueue.enqueueThread_spares.bind fun _ _ => h

lemma spawnRt_rested (h : s.Rested M fun _ => False) (timing : RtTiming) :
    Spares M (s.spawnRt t timing) (Rested M fun _ => False) := by
  have hinit : (s.initRtThread t timing).ktimers.Rested M fun _ => False := by
    refine h.of_active (fun hM u _ => ?_) fun _ j hj => Or.inl hj
    change Function.update s.ktimers.runtime t 0 u = _
    by_cases hut : u = t
    · rw [hut, Function.update_self, h.runtime hM t id]
    · rw [Function.update_of_ne hut]
  exact (KTimers.enqueueKtimer_rested hinit fun _ _ _ => id).bind fun _ hq => hq

lemma spawnMainThread_rested (h : s.Rested M A) :
    Spares M (s.spawnMainThread t) (Rested M A) := by
  refine (setState_spares _).bind ?_
  rintro _ rfl
  exact h

end Sched

/-! ### Message queues -/

namespace Ring

variable {α : Type} {r : Ring α}

lemma checkedSub_spares (m n : ℕ) : Spares M (checkedSub m n) fun _ => True := by
  unfold checkedSub
  split <;> simp

lemma checkedAdd_spares (usizeMax m n : ℕ) :
    Spares M (checkedAdd usizeMax m n) fun _ => True := by
  unfold checkedAdd
  split <;> simp

lemma pushBack_spares (x : α) : Spares M (r.pushBack x) fun _ => True := by
  unfold pushBack
  split
  · trivial
  · refine (checkedSub_spares ..).bind fun untilEnd _ => ?_
    refine Ends.bind (P := fun _ => True) ?_ fun tail _ => ?_
    · split
      · exact checkedAdd_spares ..
      · exact checkedSub_spares ..
    · refine Ends.bind (P := fun _ => True) ?_ fun r₁ _ =>
        (checkedAdd_spares ..).bind fun _ _ => trivial
      unfold write
      split <;> simp

lemma popFront_spares : Spares M r.popFront fun _ => True := by
  unfold popFront
  split
  · trivial
  · refine Ends.bind (P := fun _ => True) ?_ fun r₁ _ => ?_
    · unfold read
      split
      · split <;> simp
      · simp
    · refine (checkedSub_spares ..).bind fun last _ => ?_
      refine Ends.bind (P := fun _ => True) ?_ fun head _ =>
        (checkedSub_spares ..).bind fun _ _ => trivial
      split
      · trivial
      · exact checkedAdd_spares ..

end Ring

/-! ### The steps of the kernel -/

/-- The thread `t` has parked; it alone may have a runtime, and only as an RT thread. -/
structure Sched.Parked (M : Prop) (t : Tid) (s s' : Sched) : Prop where
  rested : s'.Rested M fun u => u = t ∧ s.kind t = .rt
  kind : s'.kind t = s.kind t
  blocked : (s'.state t).isBlocked = true

/-- If `M`, the threads with a runtime are RT threads that are blocked. -/
def Sched.Settled (M : Prop) (s : Sched) : Prop :=
  M → ∀ t, s.ktimers.runtime t ≠ 0 → s.kind t = .rt ∧ (s.state t).isBlocked = true

lemma Sched.Parked.settled {s s' : Sched} {t : Tid} (h : Parked M t s s') : s'.Settled M := by
  intro hM u hu
  by_contra hnot
  refine hu (h.rested.runtime hM u ?_)
  rintro ⟨rfl, hrt⟩
  exact hnot ⟨h.kind.trans hrt, h.blocked⟩

lemma Sched.Rested.settled {s : Sched} (h : s.Rested M fun _ => False) : s.Settled M :=
  fun hM t ht => absurd (h.runtime hM t id) ht

namespace Kernel

variable {α : Type} {k k' : Kernel α} {t : Tid} {ev : Event α}

lemma blockOn_rested (h : k.sched.Inv) (hr : k.sched.Rested M fun _ => False)
    (hcur : k.sched.current = some t) (hx : (k.sched.state t).isBlocked = false) (o : WaitObject)
    (port : TimerPort) :
    Spares M (k.blockOn o t port) fun r =>
      (r.2 = none ∧ r.1 = k) ∨ r.2.isSome = true ∧ Sched.Parked M t k.sched r.1.sched := by
  refine Ends.bind (P := fun b => b = none ∨
    ∃ p, b = some p ∧ Sched.Parked M t k.sched p.1) ?_ fun b hb => ?_
  · by_cases hkind : k.sched.kind t = .idle
    · rw [Sched.blockCurrentThreadOn_idle hkind hcur]
      exact Or.inl rfl
    · refine ((Sched.blockCurrentThreadOn_rested h hr hx o port).and
        (Sched.blockCurrentThreadOn_spec h.tidy h.cfs h.wait (h.ok t) hkind hx hcur o
          port)).imp ?_
      rintro _ ⟨hrest, s₁, rfl, -, hb⟩
      exact Or.inr ⟨_, rfl, hrest _ rfl, hb.moves.kind_self, by
        change (s₁.state t).isBlocked = true
        rw [hb.moves.state_self]
        rfl⟩
  · rcases hb with rfl | ⟨p, rfl, hp⟩
    · exact Or.inl ⟨rfl, rfl⟩
    · exact Or.inr ⟨rfl, hp⟩

lemma take_settles (h : k.sched.Inv) (hr : k.sched.Rested M fun _ => False)
    (hx : ∀ t, k.sched.current = some t → (k.sched.state t).isBlocked = false)
    (i : SemaphoreId) (port : TimerPort) :
    Spares M (k.take i port) fun r => r.1.sched.Settled M := by
  unfold take
  split
  · exact hr.settled
  · split
    · exact hr.settled
    · rename_i t hcur
      refine (blockOn_rested h hr hcur (hx t hcur) _ port).bind fun ⟨k₁, blocked⟩ hb => ?_
      rcases hb with ⟨-, rfl⟩ | ⟨-, hp⟩
      · exact hr.settled
      · exact hp.settled

lemma give_rested (hr : k.sched.Rested M fun _ => False) (i : SemaphoreId) :
    Spares M (k.give i) fun r => r.1.sched.Rested M fun _ => False := by
  refine (Sched.wakeFirst_rested hr _).bind fun r hr' => ?_
  dsimp only
  split
  · exact hr'
  · split
    · exact hr'
    · exact hr'

/-- A boosted owner has no runtime, since it is not the thread that has parked. -/
lemma boostOwnerDeadline_settles {s : Sched} (h : Sched.Parked M t s k.sched) (i : ℕ)
    {owner : Tid} (hne : owner ≠ t) (d : ℕ) :
    Spares M (k.boostOwnerDeadline i owner t d) fun k' => k'.sched.Settled M := by
  unfold boostOwnerDeadline
  dsimp only
  split
  · exact h.settled
  · split
    · exact h.settled
    · refine (Sched.setThreadSchedulerExpireAt_rested h.rested
        (fun _ j hj => Sched.apart_of_ne hne hj) _).bind ?_
      rintro _ ⟨q, rfl, hq⟩
      have hparked : Sched.Parked M t s { k.sched with ktimers := q } := ⟨hq, h.kind, h.blocked⟩
      exact hparked.settled

lemma lock_settles (h : k.sched.Inv) (hr : k.sched.Rested M fun _ => False)
    (hx : ∀ t, k.sched.current = some t → (k.sched.state t).isBlocked = false) (i : ℕ)
    (port : TimerPort) : Spares M (k.lock i port) fun r => r.1.sched.Settled M := by
  unfold lock
  split
  · exact hr.settled
  · exact hr.settled
  · rename_i t owner hcur _
    split
    · exact hr.settled
    · rename_i hne
      refine (blockOn_rested h hr hcur (hx t hcur) _ port).bind fun ⟨k₁, blocked⟩ hb => ?_
      rcases hb with ⟨rfl, rfl⟩ | ⟨hsome, hp⟩
      · exact hr.settled
      · obtain ⟨d, rfl⟩ := Option.isSome_iff_exists.mp hsome
        exact (boostOwnerDeadline_settles hp i hne d).bind fun _ h₂ => h₂

lemma unlock_rested (hr : k.sched.Rested M fun _ => False) (i : ℕ) :
    Spares M (k.unlock i) fun r => r.1.sched.Rested M fun _ => False := by
  have hrestore : ∀ owner, Spares M (k.restoreOwnerDeadline i owner)
      fun k' => k'.sched.Rested M fun _ => False := by
    intro owner
    unfold restoreOwnerDeadline
    dsimp only
    split
    · refine Ends.bind (P := Sched.Rested M fun _ => False) ?_ fun _ h₁ => h₁
      split
      · exact hr
      · refine (Sched.setThreadSchedulerExpireAt_rested hr (fun _ _ _ _ _ => id) _).imp ?_
        rintro _ ⟨q, rfl, hq⟩
        exact hq
    · exact hr
  unfold unlock
  split
  · simp
  · exact (hrestore _).bind fun _ h₁ => (Sched.wakeFirst_rested h₁ _).bind fun _ h₂ => h₂

lemma trySend_rested (hr : k.sched.Rested M fun _ => False) (i : ℕ) (x : α) :
    Spares M (k.trySend i x) fun r =>
      (r.1.sched.Rested M fun _ => False) ∧ (r.2 = .err .full → r.1 = k) := by
  refine (Ring.pushBack_spares x).bind fun pushed _ => ?_
  split
  · exact ⟨hr, fun _ => rfl⟩
  · exact (Sched.wakeFirst_rested hr _).bind fun _ h₁ => ⟨h₁, nofun⟩

lemma tryReceive_rested (hr : k.sched.Rested M fun _ => False) (i : ℕ) :
    Spares M (k.tryReceive i) fun r =>
      (r.1.sched.Rested M fun _ => False) ∧ (r.2 = .err .empty → r.1 = k) := by
  refine Ring.popFront_spares.bind fun popped _ => ?_
  split
  · exact ⟨hr, fun _ => rfl⟩
  · exact (Sched.wakeFirst_rested hr _).bind fun _ h₁ => ⟨h₁, nofun⟩

lemma block_settles (h : k.sched.Inv) (hr : k.sched.Rested M fun _ => False) {canBlock : Bool}
    (hx : canBlock = true → ∀ t, k.sched.current = some t → (k.sched.state t).isBlocked = false)
    (o : WaitObject) (call : Call α) (port : TimerPort) :
    Spares M (k.block o call canBlock port) fun r => r.1.sched.Settled M := by
  unfold block
  split
  · exact hr.settled
  · rename_i t hcur
    split
    · exact hr.settled
    · rename_i hcan
      have hblock : canBlock = true := by
        cases canBlock with
        | true => rfl
        | false => simp at hcan
      refine (blockOn_rested h hr hcur (hx hblock t hcur) o port).bind fun ⟨k₁, blocked⟩ hb => ?_
      have hsettled : k₁.sched.Settled M := by
        rcases hb with ⟨-, rfl⟩ | ⟨-, hp⟩
        · exact hr.settled
        · exact hp.settled
      dsimp only
      split
      · exact hsettled
      · exact hsettled

lemma send_settles (h : k.sched.Inv) (hr : k.sched.Rested M fun _ => False) {canBlock : Bool}
    (hx : canBlock = true → ∀ t, k.sched.current = some t → (k.sched.state t).isBlocked = false)
    (i : ℕ) (x : α) (port : TimerPort) :
    Spares M (k.send i x canBlock port) fun r => r.1.sched.Settled M := by
  refine (trySend_rested hr i x).bind fun ⟨k₁, reply⟩ ⟨h₁, hfull⟩ => ?_
  dsimp only
  split
  · obtain rfl := hfull rfl
    exact block_settles h hr hx _ _ port
  · exact h₁.settled

lemma receive_settles (h : k.sched.Inv) (hr : k.sched.Rested M fun _ => False) {canBlock : Bool}
    (hx : canBlock = true → ∀ t, k.sched.current = some t → (k.sched.state t).isBlocked = false)
    (i : ℕ) (port : TimerPort) :
    Spares M (k.receive i canBlock port) fun r => r.1.sched.Settled M := by
  refine (tryReceive_rested hr i).bind fun ⟨k₁, reply⟩ ⟨h₁, hempty⟩ => ?_
  dsimp only
  split
  · obtain rfl := hempty rfl
    exact block_settles h hr hx _ _ port
  · exact h₁.settled

lemma retry_settles (h : k.sched.Inv) (hr : k.sched.Rested M fun _ => False)
    (hx : ∀ t, k.sched.current = some t → (k.sched.state t).isBlocked = false)
    (port : TimerPort) : Spares M (k.retry port) fun r => r.1.sched.Settled M := by
  unfold retry
  split
  · simp
  · split
    · simp
    · exact send_settles (k := k.setCall _ none) h hr (fun _ => hx) ..
    · exact receive_settles (k := k.setCall _ none) h hr (fun _ => hx) ..

/-- Setting a runtime counter to zero. -/
lemma setRtThreadStartTime_rested {s : Sched} {startTime : ℕ} (hr : s.Rested M fun _ => False)
    (hzero : M → startTime = 0) :
    (s.setRtThreadStartTime startTime).1.Rested M fun _ => False := by
  unfold Sched.setRtThreadStartTime
  split
  · exact hr
  · split
    · exact KTimers.Rested.setRuntime hr hzero _
    · exact hr

/-- **Only a tick can hang.**  Any other step ends, and it misses no deadline if no thread has a
runtime; then the only thread it can leave with a runtime is an RT thread that it has blocked,
unless the step sets that runtime. -/
theorem exec_settles (h : k.Inv) (hr : k.sched.Rested M fun _ => False) (hen : k.Enabled ev)
    (htick : ∀ port fuel, ev ≠ .tick port fuel) (hzero : M → ev.SetsZero) :
    Spares M (k.exec ev) fun r => r.1.sched.Settled M := by
  have hawake : k.sched.pendsv = false → ∀ t, k.sched.current = some t →
      (k.sched.state t).isBlocked = false := h.sched.awake
  have hlift : ∀ {x : Except Fault Sched}, Spares M x (Sched.Rested M fun _ => False) →
      Spares M (k.lift x) fun r => r.1.sched.Settled M :=
    fun hx => hx.bind fun _ h₁ => h₁.settled
  cases ev with
  | yieldyi port =>
      obtain ⟨t, hcur⟩ := Option.isSome_iff_exists.mp hen.2
      exact hlift (Sched.yieldyi_rested h.sched hr hcur (hawake hen.1.1 t hcur) port)
  | msleepyi port ticksPerMs msec =>
      obtain ⟨t, hcur⟩ := Option.isSome_iff_exists.mp hen.2
      have hx := hawake hen.1.1 t hcur
      by_cases hkind : k.sched.kind t = .idle
      · refine hlift ?_
        rw [Sched.msleepyi_idle hkind hcur]
        exact hr
      · refine ((Sched.msleepyi_rested h.sched hr hcur hx port ticksPerMs msec).and
          (Sched.msleepyi_spec h.sched.tidy h.sched.cfs h.sched.wait (h.sched.ok t) hkind hx hcur
            (h.sched.isCfs t hcur) port ticksPerMs msec)).bind ?_
        rintro _ ⟨hrest, s₁, rfl, hb, -⟩
        refine Sched.Parked.settled ⟨hrest, hb.moves.kind_self, ?_⟩
        change (s₁.state t).isBlocked = true
        rw [hb.moves.state_self, Place.free, Sched.waitState]
        split <;> rfl
  | setRtThreadStartTime startTime => exact (setRtThreadStartTime_rested hr hzero).settled
  | tryTake i =>
      change (k.tryTake i).1.sched.Settled M
      unfold tryTake
      split
      · exact hr.settled
      · exact hr.settled
  | take i port => exact take_settles h.sched hr (hawake hen.1) i port
  | give i => exact (give_rested hr i).imp fun _ h₁ => h₁.settled
  | tryLock i =>
      change (k.tryLock i).1.sched.Settled M
      unfold tryLock
      split
      · exact hr.settled
      · exact hr.settled
      · exact hr.settled
  | lock i port => exact lock_settles h.sched hr (hawake hen.1) i port
  | unlock i => exact (unlock_rested hr i).imp fun _ h₁ => h₁.settled
  | trySend i x => exact (trySend_rested hr i x).imp fun _ h₁ => h₁.1.settled
  | tryReceive i => exact (tryReceive_rested hr i).imp fun _ h₁ => h₁.1.settled
  | send i x canBlock port =>
      exact send_settles h.sched hr (fun hcan => hawake (hen hcan).1) i x port
  | receive i canBlock port =>
      exact receive_settles h.sched hr (fun hcan => hawake (hen hcan).1) i port
  | retry port => exact retry_settles h.sched hr (hawake hen.1) port
  | tick port fuel => exact absurd rfl (htick port fuel)
  | schedule port =>
      obtain ⟨c, hcur⟩ := Option.isSome_iff_exists.mp hen.2
      refine hlift ((Sched.schedule_spec h.sched.toBase hcur port).mono ?_ fun s' hs => ?_)
      · rintro f (rfl | ⟨-, rfl | rfl⟩) <;> simp
      · change s'.ktimers.Rested M _
        rwa [hs.ktimers]
  | spawnCfs t priority => exact hlift (Sched.spawnCfs_rested hr priority)
  | spawnRt t timing => exact hlift (Sched.spawnRt_rested hr timing)
  | start t => exact hlift (Sched.spawnMainThread_rested hr)

/-! ### Runs without blocked RT threads -/

/-- No RT thread is blocked. -/
def RtAwake (k : Kernel α) : Prop :=
  ∀ t ∈ k.sched.spawned, k.sched.kind t = .rt → (k.sched.state t).isBlocked = false

instance : DecidablePred (RtAwake (α := α)) := fun k =>
  inferInstanceAs (Decidable (∀ t ∈ k.sched.spawned, _))

lemma RtAwake.all (h : k.RtAwake) (hinv : k.sched.Inv) (t : Tid) (hrt : k.sched.kind t = .rt) :
    (k.sched.state t).isBlocked = false :=
  h t (hinv.mem_spawned (by simp [hrt])) hrt

/-- A step that blocks no RT thread and sets no runtime counter to anything but zero. -/
def BusyStep (k k' : Kernel α) : Prop :=
  (∃ ev reply, k.Enabled ev ∧ ev.SetsZero ∧ k.exec ev = .ok (k', reply)) ∧ k'.RtAwake

lemma Initial.rested (h : k.Initial) : k.sched.Rested True fun _ => False := by
  obtain ⟨layout, periodTicks, execTicks, hboot⟩ := h.boot
  have hnew : (Sched.newKtimers layout).Rested True fun _ => False :=
    ⟨fun _ _ _ => rfl, fun _ _ => False.elim⟩
  have hends : Spares True (Sched.boot layout periodTicks execTicks)
      (Sched.Rested True fun _ => False) :=
    (KTimers.insert_rested hnew false (by simp)).bind fun _ h₁ =>
      (KTimers.enqueueKtimer_rested (h₁.setEntity _) fun _ _ _ => id).bind fun _ h₂ => h₂
  exact hends.value hboot

/-- What holds in a run without blocked RT threads. -/
structure Busy (k : Kernel α) : Prop where
  inv : k.Inv
  rested : k.sched.Rested True fun _ => False
  awake : k.RtAwake

namespace Busy

lemma start (h : k.Initial) : k.Busy where
  inv := h.inv
  rested := h.rested
  awake t ht := by
    obtain ⟨layout, periodTicks, execTicks, hboot⟩ := h.boot
    obtain ⟨-, -, hsp, -⟩ := Sched.boot_base hboot
    rw [hsp] at ht
    cases ht

/-- A sleeping thread is no RT thread. -/
lemma sched (h : k.Busy) : k.sched.Busy where
  rested := h.rested
  sleeps t ht hrt := by
    have hwaiting : k.sched.state t = .waiting := (h.inv.sched.ok t).timed.mp ht
    have hx := h.awake.all h.inv.sched t hrt
    rw [hwaiting] at hx
    cases hx

/-- **No step misses a deadline, and every thread still has no runtime unless it has been
blocked.** -/
lemma exec (h : k.Busy) (hen : k.Enabled ev) (hzero : ev.SetsZero) :
    Ends (· ≠ .deadlineMiss) (k.exec ev) fun r => r.1.sched.Settled True := by
  by_cases htick : ∃ port fuel, ev = .tick port fuel
  · obtain ⟨port, fuel, rfl⟩ := htick
    exact (Sched.handleSchedTick_busy h.sched port fuel).bind fun _ h₁ => h₁.rested.settled
  · exact (exec_settles h.inv h.rested hen (fun port fuel heq => htick ⟨port, fuel, heq⟩)
      fun _ => hzero).weaken fun f hf => hf.2 trivial

lemma step (h : k.Busy) (hs : BusyStep k k') : k'.Busy := by
  obtain ⟨⟨ev, reply, hen, hzero, hrun⟩, hawake⟩ := hs
  have hinv : k'.Inv := Step.inv h.inv ⟨ev, reply, hen, hrun⟩
  have hsettled : k'.sched.Settled True := (h.exec hen hzero).value hrun
  refine ⟨hinv, ⟨fun hM t _ => ?_, fun _ _ => False.elim⟩, hawake⟩
  by_contra hne
  obtain ⟨hrt, hblocked⟩ := hsettled hM t hne
  rw [hawake.all hinv.sched t hrt] at hblocked
  cases hblocked

/-- **No step misses a deadline**, whether or not it sets a runtime. -/
lemma ne_deadlineMiss (h : k.Busy) (hen : k.Enabled ev) : k.exec ev ≠ .error .deadlineMiss := by
  intro hrun
  by_cases hzero : ev.SetsZero
  · exact (h.exec hen hzero).error hrun rfl
  · cases ev with
    | setRtThreadStartTime startTime => cases hrun
    | _ => exact hzero trivial

end Busy

/-- **As long as no RT thread blocks and none sets its runtime, no deadline is ever missed.**
However late an RT thread finishes its jobs, its runtime is zero whenever the deadline is checked,
and no step of such a run ends in the deadline-miss panic. -/
theorem busy_never_misses (h : Runs.Reach Initial BusyStep k) :
    (∀ t, k.sched.ktimers.runtime t = 0) ∧
      ∀ ev, k.Enabled ev → k.exec ev ≠ .error .deadlineMiss := by
  have hbusy : k.Busy :=
    Runs.Reach.invariant (fun _ hi => .start hi) (fun _ _ hk hs => hk.step hs) h
  exact ⟨fun t => hbusy.rested.runtime trivial t id, fun ev hen => hbusy.ne_deadlineMiss hen⟩

/-- A step that blocks no RT thread and sets no runtime counter to anything but zero. -/
def busyNext (k : Kernel α) (ev : Event α) : Option (Kernel α) :=
  (k.next ev).bind fun k' => if ev.SetsZero ∧ k'.RtAwake then some k' else none

lemma busyNext_step (h : k.busyNext ev = some k') : BusyStep k k' := by
  obtain ⟨k₁, hnext, h⟩ := Option.bind_eq_some_iff.mp h
  split at h
  · rename_i hbusy
    obtain rfl := Option.some.inj h
    obtain ⟨hen, reply, hrun⟩ := next_eq_some.mp hnext
    exact ⟨⟨ev, reply, hen, hbusy.1, hrun⟩, hbusy.2⟩
  · cases h

/-- An RT thread runs for 1900 ticks without finishing its job, whose relative deadline is 100. -/
def lateTrial : Option (Kernel ℕ) := trial busyNext
  [.spawnRt 1 ⟨1000, 100, 50⟩, .start 0, .tick ⟨some 99, some 0⟩ 8, .schedule ⟨some 99, some 0⟩,
    .setRtThreadStartTime 0, .tick ⟨some 1899, some 0⟩ 8, .schedule ⟨some 1899, some 0⟩]

theorem busy_never_misses_late : ∃ k, lateTrial = some k ∧ k.sched.state 1 = .running ∧
    k.sched.ktimers.nowTicks = 2000 ∧ (∀ t, k.sched.ktimers.runtime t = 0) ∧
    ∀ ev, k.Enabled ev → k.exec ev ≠ .error .deadlineMiss := by
  have htest : lateTrial.any (fun k => k.sched.state 1 == .running &&
      k.sched.ktimers.nowTicks == 2000) = true := by decide +kernel
  obtain ⟨k, hk, htest⟩ := (Option.any_eq_true ..).mp htest
  simp only [Bool.and_eq_true, beq_iff_eq] at htest
  have hreach : Runs.Reach Initial BusyStep k := trial_reach (fun _ _ _ => busyNext_step) hk
  exact ⟨k, hk, htest.1, htest.2, busy_never_misses hreach⟩

end Kernel

end Rtsched

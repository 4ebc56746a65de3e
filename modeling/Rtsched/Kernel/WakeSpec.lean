import Rtsched.Kernel.BlockSpec

/-!
What waking by a synchronization object does to the place of a thread.

* `Sched.wakeWaiter_spec`: a suspended thread returns to its queue.
* `Sched.wakeFirst_spec`: **the first waiter of an object returns to its queue**.
-/

namespace Rtsched

open Ordered Outcome

namespace Sched

variable {s s' : Sched} {t : Tid}

/-- **Specification of `enqueue_runq_from_waitq`.** -/
lemma enqueueRunqFromWaitq_spec (h : s.Tidy) (hkind : s.kind t = .cfs)
    (hqueued : ¬ (s.place t).queued) :
    Ends (· = .arithmetic) (s.enqueueRunqFromWaitq t) fun s' =>
      Moves t { s.place t with state := .ready, queued := True } s s' ∧
        s'.ktimers = s.ktimers ∧ s'.waitq = s.waitq ∧
        s.runq.enqueueFromWaitq t = .ok s'.runq := by
  have hmem : t ∉ s.runq.tree := hqueued
  obtain ⟨s₁, hset, h₁, hk₁, hr₁, hw₁, -⟩ := setState_spec (t := t) (x := .ready) h
    (ThreadState.canTransitionTo_ready _)
  have hmem₁ : t ∉ s₁.runq.tree := by rwa [hr₁]
  rw [enqueueRunqFromWaitq, if_neg (not_not.mpr hkind), if_neg hmem, hset, ok_bind]
  refine (RunQueue.enqueueFromWaitq_spec h₁.tidy.runq hmem₁).named.bind fun r ⟨hrun, hr, _⟩ => ?_
  refine ⟨(h₁.trans (moves_runq (t := t) h₁.tidy hr.ordered fun u hu => ?_)).congr ?_, hk₁, hw₁,
    hr₁ ▸ hrun⟩
  · simp [hr.mem, hu]
  · rw [h₁.self]
    simp [hr.mem]

/-- A step in which a synchronization object makes the thread `t` ready. -/
structure Readies (t : Tid) (ev : Option SyncType) (s s' : Sched) : Prop where
  moves : Moves t (.free (s.kind t) .ready ev) s s'
  frame : KTimers.Frame (fun k => k = .wait ∨ (s.kind t = .rt ∧ k = .rt t)) s.ktimers s'.ktimers
  nowTicks : s'.ktimers.nowTicks = s.ktimers.nowTicks
  next : s'.ktimers.next = s'.ktimers.active.head?
  rt : s.kind t = .rt → .rt t ∈ s'.ktimers.active ∧ (¬ s.ktimers.expired (.rt t) = true →
    (s'.ktimers.entity (.rt t)).expireAt = (s.ktimers.entity (.rt t)).expireAt ∧
      s'.ktimers.runtime t = s.ktimers.runtime t)
  runq : s.kind t ≠ .cfs → s'.runq = s.runq
  runqCfs : s.kind t = .cfs → s.runq.enqueueFromWaitq t = .ok s'.runq
  armed : s'.WaitArmed

/-- The RT branch of `wake_waiter`. -/
lemma enqueueKtimerqFromWaitq_spec (h : s.Tidy) (hwait : s.ktimers.Linked .wait)
    {ev : Option SyncType} (hp : s.place t = .free .rt .suspended ev) :
    Ends Fault.Benign (s.enqueueKtimerqFromWaitq t) (Readies t ev s) := by
  have hkind : s.kind t = .rt := congrArg Place.kind hp
  have hstate : s.state t = .suspended := congrArg Place.state hp
  have hsusp : t ∈ s.waitq.suspended := by
    have hparked : (s.place t).parked := by
      rw [hp]
      rfl
    exact hparked
  have hunlinked : ¬ s.ktimers.Linked (.rt t) := by
    have htimer : ¬ (s.place t).timer := by
      rw [hp]
      exact fun h => absurd h.2 (by decide)
    exact htimer
  obtain ⟨s₁, hrem, hk₁, hr₁, h₁⟩ :=
    removeWaitThread_spec h (by rw [hkind]; decide) hstate hsusp
  obtain ⟨s₂, hset, h₂, hk₂, hr₂, -, -⟩ := setState_spec (t := t) (x := .ready) h₁.tidy
    (ThreadState.canTransitionTo_ready _)
  have hk : s₂.ktimers = s.ktimers := hk₂.trans hk₁
  rw [enqueueKtimerqFromWaitq, if_neg (not_not.mpr hkind), hrem, ok_bind, hset, ok_bind, hk]
  refine (KTimers.enqueueKtimer_spec h.ktimers hunlinked (by simp)).bind
    fun q ⟨hq, hact, hcalm⟩ => ?_
  have hlinked : q.Linked (.rt t) := Or.inl hact
  have h₃ : Moves t { s₂.place t with timer := q.Linked (.rt t) } s₂ { s₂ with ktimers := q } := by
    refine moves_ktimers h₂.tidy hq.wf ?_ fun k hkt => ?_
    · rw [hk]
      exact hq.frame.mono fun k hk => Or.inr (Or.inr hk)
    · rw [hk]
      exact hq.frame.linked k hkt
  refine (programWaitKtimer_spec h₃.tidy ((hq.frame.linked .wait (by simp)).mpr hwait) t).imp
    fun s₄ ⟨h₄, hs⟩ => ?_
  have hset := hs.settles
  refine ⟨(h₁.trans (h₂.trans (h₃.trans h₄))).congr ?_, ?_, hset.nowTicks.trans hq.nowTicks,
    hset.next, fun _ => ⟨?_, fun hexp => ?_⟩, fun _ => hs.runq.trans (hr₂.trans hr₁),
    fun hcfs => absurd (hkind.symm.trans hcfs) (by decide), hs.armed⟩
  · rw [h₃.self, h₂.self, h₁.self, hp, hkind]
    ext <;> simp [Place.settled, hlinked, ThreadState.isBlocked]
  · exact (hq.frame.mono fun k hk => Or.inr ⟨hkind, hk⟩).trans
      (hset.frame.mono fun k hk => Or.inl hk)
  · rcases hset.frame.rearmed (.rt t) (by simp) with hsame | hnew
    · exact hsame.active.mpr hact
    · exact hnew.active
  · obtain ⟨hent, hrun⟩ := hcalm hexp
    have hsame : KTimers.Same q s₄.ktimers (.rt t) := by
      refine hset.frame.same _ (by simp) fun hl => hexp ?_
      have hle := hl.2
      rw [hset.nowTicks] at hle
      simp only [hent, hq.nowTicks] at hle
      simpa [KTimers.expired, KTimerEntity.isExpiredAt] using hle
    refine ⟨?_, hsame.runtime.trans hrun⟩
    rw [hsame.entity, hent]

/-- **Specification of `wake_waiter`.** -/
lemma wakeWaiter_spec (h : s.Tidy) (hwait : s.ktimers.Linked .wait) {ev : Option SyncType}
    (hp : s.place t = .free (s.kind t) .suspended ev) (hkind : s.kind t ≠ .idle) :
    Ends Fault.Benign (s.wakeWaiter t) (Readies t ev s) := by
  unfold wakeWaiter
  cases hk : s.kind t with
  | idle => exact absurd hk hkind
  | rt =>
      rw [hk] at hp
      exact enqueueKtimerqFromWaitq_spec h hwait hp
  | cfs =>
      rw [hk] at hp
      have hsusp : t ∈ s.waitq.suspended := by
        have hparked : (s.place t).parked := by
          rw [hp]
          rfl
        exact hparked
      obtain ⟨s₁, hrem, hk₁, hr₁, h₁⟩ :=
        removeWaitThread_spec h hkind (congrArg Place.state hp) hsusp
      have hqueued : ¬ (s₁.place t).queued := by
        rw [h₁.self, hp]
        exact fun h => absurd h.2 (by decide)
      simp only [hrem, ok_bind]
      refine ((enqueueRunqFromWaitq_spec h₁.tidy (by rw [h₁.kind_self]; exact hk) hqueued).weaken
        fun _ => Fault.benign_of_arithmetic).bind fun s₂ ⟨h₂, hk₂, _, hr₂⟩ => ?_
      have hkt : s₂.ktimers = s.ktimers := hk₂.trans hk₁
      refine (programWaitKtimer_spec h₂.tidy (by rwa [hkt]) t).imp fun s₃ ⟨h₃, hs⟩ => ?_
      have hset := hs.settles
      rw [hkt] at hset
      refine ⟨(h₁.trans (h₂.trans h₃)).congr ?_, hset.frame.mono fun k hk => Or.inl hk,
        hset.nowTicks, hset.next,
        fun hrt => absurd (hrt.symm.trans hk) (by decide), fun hne => absurd hk hne, fun _ => ?_,
        hs.armed⟩
      swap
      · rw [hs.runq, ← hr₁]
        exact hr₂
      rw [h₂.self, h₁.self, hp, hk]
      ext <;> simp [Place.settled, ThreadState.isBlocked]

/-- **Specification of `pop_waiting_thread`.** -/
lemma popWaitingThread_spec (h : s.Tidy) {o : WaitObject} {l : List Tid}
    (ho : s.waiters o = t :: l) (hok : (s.place t).Ok) :
    ∃ s', s.popWaitingThread o = .ok (s', some t) ∧ s'.ktimers = s.ktimers ∧
      s'.runq = s.runq ∧ Moves t (.free (s.kind t) .suspended (some o.syncType)) s s' := by
  have hmem : (s.place t).waitsOn o := by
    change t ∈ s.waiters o
    rw [ho]
    exact List.mem_cons_self ..
  obtain ⟨hstate, hevent⟩ := hok.waits o hmem
  have hblocked : (s.place t).state.isBlocked = true := by rw [hstate]; rfl
  have hinc := h.waiters o
  rw [ho] at hinc
  have hnodup := Increasing.nodup hinc
  refine ⟨{ s with waiters := Function.update s.waiters o l }, ?_, rfl, rfl, ?_⟩
  · replace hblocked : (s.state t).isBlocked = true := hblocked
    simp only [popWaitingThread, ho, hblocked, if_true]
  · refine (moves_waiters (t := t) h s.deadlineAt (Function.update s.waiters o l)
      (fun o' => ?_) (fun u hu o' => ?_) fun _ _ => rfl).congr ?_
    · by_cases hoo : o' = o
      · rw [hoo, Function.update_self]
        exact (List.pairwise_cons.mp hinc).2
      · rw [Function.update_of_ne hoo]
        exact h.waiters o'
    · by_cases hoo : o' = o
      · simp [hoo, ho, hu]
      · rw [Function.update_of_ne hoo]
    · -- the object was the only one
      have hnone : (fun o' => t ∈ Function.update s.waiters o l o') = fun _ => False := by
        funext o'
        by_cases hoo : o' = o
        · rw [hoo, Function.update_self]
          exact eq_false (List.nodup_cons.mp hnodup).1
        · rw [Function.update_of_ne hoo]
          exact eq_false fun ht => hoo (hok.unique o' o ht hmem)
      rw [hnone, hok.eq_settled, hstate, hevent]
      rfl

/-- **Popping and waking the first waiter of an object.** -/
theorem wakeFirst_spec (h : s.Tidy) (hwait : s.ktimers.Linked .wait)
    (hok : ∀ u, (s.place u).Ok) (o : WaitObject) :
    Ends Fault.Benign (s.wakeFirst o) fun r =>
      (s.waiters o = [] ∧ r = (s, none)) ∨
        ∃ t l s₁, s.waiters o = t :: l ∧ r = (s₁.requestContextSwitch, some t) ∧
          Readies t (some o.syncType) s s₁ := by
  unfold wakeFirst
  cases ho : s.waiters o with
  | nil =>
      simp only [popWaitingThread, ho, ok_bind, wake]
      exact Or.inl ⟨trivial, rfl⟩
  | cons t l =>
      obtain ⟨s₁, hpop, hk₁, hr₁, h₁⟩ := popWaitingThread_spec h ho (hok t)
      have hmem : (s.place t).waitsOn o := by
        change t ∈ s.waiters o
        rw [ho]
        exact List.mem_cons_self ..
      have hkind : s.kind t ≠ .idle :=
        (hok t).kind_ne_idle (by rw [((hok t).waits o hmem).1]; rfl)
      have hkind₁ : s₁.kind t = s.kind t := h₁.kind_self
      have hp₁ : s₁.place t = .free (s₁.kind t) .suspended (some o.syncType) := by
        rw [h₁.self, hkind₁]
      simp only [hpop, ok_bind, wake]
      refine Ends.bind (P := fun s' => ∃ s₂, s' = s₂.requestContextSwitch ∧
        Readies t (some o.syncType) s s₂) ?_ ?_
      · refine (wakeWaiter_spec h₁.tidy (by rwa [hk₁]) hp₁ (by rwa [hkind₁])).bind
          fun s₂ h₂ => ⟨s₂, rfl, ?_⟩
        have hframe := h₂.frame
        rw [hk₁, hkind₁] at hframe
        refine ⟨(h₁.trans h₂.moves).congr (by rw [hkind₁]), hframe, by rw [h₂.nowTicks, hk₁],
          h₂.next, fun hrt => ?_, fun hne => ?_, fun hcfs => ?_, h₂.armed⟩
        · have hval := h₂.rt (by rwa [hkind₁])
          rwa [hk₁] at hval
        · rw [h₂.runq (by rwa [hkind₁]), hr₁]
        · rw [← hr₁]
          exact h₂.runqCfs (by rwa [hkind₁])
      · rintro _ ⟨s₂, rfl, h₂⟩
        exact Or.inr ⟨t, l, s₂, rfl, rfl, h₂⟩

end Sched

end Rtsched

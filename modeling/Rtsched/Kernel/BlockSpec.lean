import Rtsched.Kernel.Place
import Rtsched.Kernel.Sync

/-!
What blocking and waking do to the place of a thread.

* `Sched.blockCurrentThreadOn_spec`: **the current thread leaves its queue and is registered with
  one object**.
* `Sched.wakeFirst_spec`: **the first waiter of an object returns to its queue**.
* `Sched.msleepyi_spec`, `Sched.yieldyi_spec`: sleeping and yielding.
-/

namespace Rtsched

open Ordered Outcome

namespace Sched

variable {s s' : Sched} {t : Tid}

/-- A step on the wait timer and the choice of the next timer move no thread. -/
lemma moves_settles (h : s.Tidy) (hwait : s.ktimers.Linked .wait) {q : KTimers}
    (hq : KTimers.Settles (· = .wait) s.ktimers q) (hq' : q.Linked .wait) (t : Tid) :
    Moves t (s.place t) s { s with ktimers := q } := by
  have hlinked : ∀ k, q.Linked k ↔ s.ktimers.Linked k := by
    intro k
    by_cases hk : k = .wait
    · rw [hk]
      exact iff_of_true hq' hwait
    · exact hq.frame.linked k hk
  refine (moves_ktimers (t := t) h hq.wf (hq.frame.mono fun k hk => Or.inr (Or.inl hk))
    fun k _ => hlinked k).congr ?_
  rw [hlinked]
  rfl

/-- The wait timer stands for the earliest wake-up time. -/
def WaitArmed (s : Sched) : Prop :=
  (s.ktimers.entity .wait).expireAt = KTimers.waitExpireAt s.firstWakeAt

/-- The wait timer has been set to the earliest wake-up time. -/
structure Programs (s s' : Sched) : Prop where
  settles : KTimers.Settles (· = .wait) s.ktimers s'.ktimers
  armed : s'.WaitArmed
  runq : s'.runq = s.runq
  waitq : s'.waitq = s.waitq

/-- **Specification of `program_wait_ktimer`.** -/
lemma programWaitKtimer_spec (h : s.Tidy) (hwait : s.ktimers.Linked .wait) (t : Tid) :
    Ends Fault.Benign s.programWaitKtimer fun s' => Moves t (s.place t) s s' ∧ Programs s s' := by
  rw [programWaitKtimer]
  exact (KTimers.programWaitKtimer_spec h.ktimers hwait _).bind fun q ⟨hq, hq', harmed⟩ =>
    ⟨moves_settles h hwait hq hq' t, hq, harmed, rfl, rfl⟩

/-! ### Entering and leaving the wait queue -/

/-- The state in which a thread waits for a wake-up time. -/
def waitState (wakeAt : ℕ) : ThreadState := if wakeAt = u64Max then .suspended else .waiting

/-- **Specification of `insert_wait_thread`.** -/
lemma insertWaitThread_spec (h : s.Tidy) (hkind : s.kind t ≠ .idle)
    (hstate : (s.state t).isBlocked = false) (htree : ¬ (s.place t).timed)
    (hsusp : ¬ (s.place t).parked) :
    ∃ s', s.insertWaitThread t = .ok s' ∧ s'.ktimers = s.ktimers ∧ s'.runq = s.runq ∧
      s'.waitq.entity = s.waitq.entity ∧ Moves t { s.place t with
        state := waitState (s.waitq.entity t).wakeAt
        timed := waitState (s.waitq.entity t).wakeAt = .waiting
        parked := waitState (s.waitq.entity t).wakeAt = .suspended } s s' := by
  replace htree : t ∉ s.waitq.tree := htree
  replace hsusp : t ∉ s.waitq.suspended := hsusp
  rw [insertWaitThread, if_neg hkind]
  by_cases hforever : (s.waitq.entity t).wakeAt = u64Max
  · obtain ⟨s₁, hset, h₁, hk₁, hr₁, hw₁, -⟩ := setState_spec (t := t) (x := .suspended) h
      (ThreadState.canTransitionTo_of_not_blocked hstate)
    let w : WaitQueue := { s₁.waitq with suspended := s₁.waitq.suspended ++ [t] }
    refine ⟨{ s₁ with waitq := w }, ?_, hk₁, hr₁, by simp [w, hw₁], ?_⟩
    · rw [if_pos hforever, hset, ok_bind, if_neg (by rwa [hw₁])]
    · refine (h₁.trans (moves_waitq (t := t) h₁.tidy w h₁.tidy.waitq ?_ ?_)).congr ?_
      · rw [List.nodup_append]
        refine ⟨h₁.tidy.suspended, List.nodup_singleton t, fun u hu v hv => ?_⟩
        rintro rfl
        rw [List.mem_singleton.mp hv, hw₁] at hu
        exact hsusp hu
      · exact fun u hu => ⟨Iff.rfl, by simp [w, hu], rfl⟩
      · rw [h₁.self]
        ext <;> simp [w, hw₁, place, waitState, hforever, htree]
  · obtain ⟨s₁, hset, h₁, hk₁, hr₁, hw₁, -⟩ := setState_spec (t := t) (x := .waiting) h
      (ThreadState.canTransitionTo_of_not_blocked hstate)
    have htree₁ : t ∉ s₁.waitq.tree := by rwa [hw₁]
    let w : WaitQueue := { s₁.waitq with tree := ordInsert s₁.waitq.cmp t s₁.waitq.tree }
    refine ⟨{ s₁ with waitq := w }, ?_, hk₁, hr₁, by simp [w, hw₁], ?_⟩
    · rw [if_neg hforever, hset, ok_bind, link_of_notMem htree₁, ok_bind]
    · refine (h₁.trans (moves_waitq (t := t) h₁.tidy w
        (h₁.tidy.waitq.ordInsert htree₁) h₁.tidy.suspended ?_)).congr ?_
      · exact fun u hu => ⟨by simp [w, hu], Iff.rfl, rfl⟩
      · rw [h₁.self]
        ext <;> simp [w, hw₁, place, waitState, hforever, hsusp]

/-- **Specification of `remove_wait_thread`** for a suspended thread. -/
lemma removeWaitThread_spec (h : s.Tidy) (hkind : s.kind t ≠ .idle)
    (hstate : s.state t = .suspended) (hsusp : t ∈ s.waitq.suspended) :
    ∃ s', s.removeWaitThread t = .ok s' ∧ s'.ktimers = s.ktimers ∧ s'.runq = s.runq ∧
      Moves t { s.place t with parked := False } s s' := by
  let w : WaitQueue := { s.waitq with suspended := s.waitq.suspended.erase t }
  refine ⟨{ s with waitq := w }, ?_, rfl, rfl, ?_⟩
  · rw [removeWaitThread, if_neg hkind, if_pos hstate, unlink_of_mem hsusp, ok_bind]
  · refine (moves_waitq (t := t) h w h.waitq (h.suspended.erase t) ?_).congr ?_
    · exact fun u hu => ⟨Iff.rfl, by simp [w, h.suspended.mem_erase_iff, hu], rfl⟩
    · ext <;> simp [w, place, h.suspended.mem_erase_iff]

/-- Assigning the wait entity of a thread that is in no wait structure. -/
lemma setWaitEntity_spec (h : s.Tidy) (htree : t ∉ s.waitq.tree) (e : WaitEntity) :
    Moves t { s.place t with event := e.waitevt } s (s.setWaitEntity t e) := by
  have hentity : ∀ u ≠ t, Function.update s.waitq.entity t e u = s.waitq.entity u :=
    fun u hu => Function.update_of_ne hu ..
  refine (moves_waitq (t := t) h { s.waitq with entity := Function.update s.waitq.entity t e } ?_
    h.suspended fun u hu => ⟨Iff.rfl, Iff.rfl, hentity u hu⟩).congr ?_
  · refine h.waitq.congr fun u hu v hv => ?_
    have hut : u ≠ t := fun heq => htree (heq ▸ hu)
    have hvt : v ≠ t := fun heq => htree (heq ▸ hv)
    simp only [WaitQueue.cmp, compareLex, compareOn, keyCmp, hentity u hut, hentity v hvt]
  · ext <;> simp [place]

/-! ### Blocking -/

/-- **Specification of `dequeue_runq_to_waitq`.** -/
lemma dequeueRunqToWaitq_spec (h : s.Tidy) (hwait : s.ktimers.Linked .wait) {x : ThreadState}
    {ev : Option SyncType} (hp : s.place t = .free .cfs x ev) (hx : x.isBlocked = false) :
    Ends Fault.Benign (s.dequeueRunqToWaitq t) fun s' =>
      Moves t (.free .cfs (waitState (s.waitq.entity t).wakeAt) ev) s s' ∧
        KTimers.Settles (· = .wait) s.ktimers s'.ktimers ∧ s'.WaitArmed ∧
        s'.waitq.entity = s.waitq.entity ∧ s'.runq = s.runq.leave t := by
  have hkind : s.kind t = .cfs := congrArg Place.kind hp
  have hstate : s.state t = x := congrArg Place.state hp
  have hqueued : t ∈ s.runq.tree ↔ x = .ready := by
    have hq : (t ∈ s.runq.tree) = (ThreadKind.cfs = .cfs ∧ x = .ready) := congrArg Place.queued hp
    simp [hq]
  rw [dequeueRunqToWaitq, if_neg (not_not.mpr hkind), hstate]
  -- the thread leaves the run queue
  have hleave : Ends Fault.Benign (if x = .ready then do
        let r ← s.runq.remove t
        .ok { s with runq := r }
      else .ok s) fun s₁ => Moves t { s.place t with queued := False } s s₁ ∧
        s₁.ktimers = s.ktimers ∧ s₁.waitq = s.waitq ∧
        s₁.runq = { s.runq with tree := s.runq.tree.erase t } := by
    by_cases hready : x = .ready
    · have htree := hqueued.mpr hready
      obtain ⟨r, hrem, hr, hmem⟩ := RunQueue.remove_spec h.runq htree
      rw [if_pos hready, hrem, ok_bind]
      rw [RunQueue.remove, unlink_of_mem htree, ok_bind] at hrem
      obtain rfl := Except.ok.inj hrem
      refine ⟨(moves_runq h hr fun u hu => ?_).congr ?_, rfl, rfl, rfl⟩
      · rw [hmem]
        simp [hu]
      · simp only [hmem, ne_eq, not_true_eq_false, and_false]
    · rw [if_neg hready]
      refine ⟨(Moves.refl h t).congr ?_, rfl, rfl, ?_⟩
      · ext <;> simp [place, hqueued, hready]
      · rw [List.erase_of_not_mem fun htree => hready (hqueued.mp htree)]
  refine hleave.bind ?_
  rintro s₁ ⟨h₁, hk₁, hw₁, hr₁⟩
  have hp₁ : s₁.place t = { Place.free .cfs x ev with queued := False } := by rw [h₁.self, hp]
  obtain ⟨s₂, hins, hk₂, hr₂, hw₂, h₂⟩ := insertWaitThread_spec (t := t) h₁.tidy
    (by rw [h₁.kind_self, hp]; simp [Place.settled]) (by rw [h₁.state_self, hp]; exact hx)
    (by rw [hp₁]; exact ThreadState.ne_waiting hx) (by rw [hp₁]; exact ThreadState.ne_suspended hx)
  rw [hins, ok_bind]
  have h₃ : Moves t (s₂.place t) s₂ { s₂ with runq := s₂.runq.dropPriority t } :=
    moves_runq h₂.tidy (r := s₂.runq.dropPriority t) h₂.tidy.runq fun _ _ => Iff.rfl
  have hkt : s₂.ktimers = s.ktimers := hk₂.trans hk₁
  refine (programWaitKtimer_spec h₃.tidy (by simpa [hkt] using hwait) t).imp ?_
  rintro s₄ ⟨h₄, hs⟩
  refine ⟨(h₁.trans (h₂.trans (h₃.trans h₄))).congr ?_, by simpa [hkt] using hs.settles, hs.armed,
    ?_, ?_⟩
  · rw [h₃.self, h₂.self, hp₁, hw₁]
    ext <;> simp [Place.settled, waitState]
    split <;> simp
  · rw [hs.waitq, ← hw₁]
    exact hw₂
  · rw [hs.runq, hr₂, hr₁]
    rfl

/-- **Specification of `dequeue_ktimerq_to_waitq`.** -/
lemma dequeueKtimerqToWaitq_spec (h : s.Tidy) (hwait : s.ktimers.Linked .wait) {x : ThreadState}
    {ev : Option SyncType} (hp : s.place t = .free .rt x ev) (hx : x.isBlocked = false) :
    Ends Fault.Benign (s.dequeueKtimerqToWaitq t) fun s' =>
      Moves t (.free .rt (waitState (s.waitq.entity t).wakeAt) ev) s s' ∧
        KTimers.Frame (fun k => k = .wait ∨ k = .rt t) s.ktimers s'.ktimers ∧
        s'.ktimers.nowTicks = s.ktimers.nowTicks ∧
        s'.ktimers.next = s'.ktimers.active.head? ∧
        (s'.ktimers.entity (.rt t)).expireAt = (s.ktimers.entity (.rt t)).expireAt ∧
        s'.ktimers.runtime t = s.ktimers.runtime t ∧ s'.WaitArmed ∧
        s'.waitq.entity = s.waitq.entity ∧ s'.runq = s.runq := by
  have hkind : s.kind t = .rt := congrArg Place.kind hp
  have hlinked : s.ktimers.Linked (.rt t) := by
    have hq : s.ktimers.Linked (.rt t) = (ThreadKind.rt = .rt ∧ x.isBlocked = false) :=
      congrArg Place.timer hp
    rw [hq]
    exact ⟨rfl, hx⟩
  rw [dequeueKtimerqToWaitq, if_neg (not_not.mpr hkind)]
  refine (KTimers.removeKtimer_spec h.ktimers hlinked).bind ?_
  rintro q ⟨hq, hframe, hnot, hent, hrun, hnow⟩
  have h₁ : Moves t { s.place t with timer := q.Linked (.rt t) } s { s with ktimers := q } :=
    moves_ktimers h hq (hframe.mono fun k hk => Or.inr (Or.inr hk)) fun k hk =>
      hframe.linked k hk
  have hp₁ : place { s with ktimers := q } t = { Place.free .rt x ev with timer := False } := by
    rw [h₁.self, hp, eq_false hnot]
  obtain ⟨s₂, hins, hk₂, hr₂, hw₂, h₂⟩ := insertWaitThread_spec (t := t) h₁.tidy
    (by rw [h₁.kind_self, hp]; simp [Place.settled]) (by rw [h₁.state_self, hp]; exact hx)
    (by rw [hp₁]; exact ThreadState.ne_waiting hx) (by rw [hp₁]; exact ThreadState.ne_suspended hx)
  rw [hins, ok_bind]
  have hwait₂ : s₂.ktimers.Linked .wait := by
    rw [hk₂]
    exact (hframe.linked .wait (by simp)).mpr hwait
  refine (programWaitKtimer_spec h₂.tidy hwait₂ t).imp ?_
  rintro s₃ ⟨h₃, hs⟩
  have hs' : KTimers.Settles (· = .wait) q s₃.ktimers := by
    have hset := hs.settles
    rwa [hk₂] at hset
  -- the timer is in no tree, so the choice of the next one leaves it alone
  have hsame : KTimers.Same q s₃.ktimers (.rt t) :=
    hs'.frame.same _ (by simp) fun hl => hnot hl.1
  refine ⟨(h₁.trans (h₂.trans h₃)).congr ?_, ?_, ?_, hs.settles.next, ?_, ?_, hs.armed, ?_, ?_⟩
  · rw [h₂.self, hp₁]
    ext <;> simp [Place.settled, waitState]
    split <;> simp [ThreadState.isBlocked]
  · exact (hframe.mono fun k hk => Or.inr hk).trans (hs'.frame.mono fun k hk => Or.inl hk)
  · rw [hs.settles.nowTicks, hk₂]
    exact hnow
  · rw [hsame.entity, hent]
  · exact hsame.runtime.trans hrun
  · rw [hs.waitq]
    exact hw₂
  · rw [hs.runq]
    exact hr₂

/-- The CFS timer has been parked by a thread that gives up the processor after `elapsed` ticks. -/
structure Parks (s : Sched) (elapsed : ℕ) (s' : Sched) : Prop where
  inactive : .cfs ∈ s'.ktimers.inactive
  expireAt : (s'.ktimers.entity .cfs).expireAt = s.ktimers.parkedExpireAt elapsed

/-- A step in which the thread `t` gives up the processor after `elapsed` ticks and blocks at the
place `p`. -/
structure Blocks (t : Tid) (p : Place) (elapsed : ℕ) (s s' : Sched) : Prop where
  moves : Moves t p s s'
  frame : KTimers.Frame (fun k => k = .wait ∨ s.threadSchedulerKtimer t = some k)
    s.ktimers s'.ktimers
  cfs : s.kind t = .cfs → s.Parks elapsed s'
  nowTicks : s'.ktimers.nowTicks = satAdd64 s.ktimers.nowTicks elapsed
  next : s'.ktimers.next = s'.ktimers.active.head?
  expireAt : s.kind t = .rt →
    (s'.ktimers.entity (.rt t)).expireAt = s.ktimers.yieldedExpireAt t elapsed
  runtime : s.kind t = .rt →
    s'.ktimers.runtime t = satAdd32 (s.ktimers.runtime t) elapsed
  runq : s.kind t ≠ .cfs → s'.runq = s.runq
  runqCfs : s.kind t = .cfs → s'.runq = s.runq.leave t
  armed : s'.WaitArmed
  wakeAt : p.state = waitState (s'.waitq.entity t).wakeAt

/-- The timer of a thread that can run is linked. -/
lemma threadSchedulerKtimer_spec (hcfs : s.ktimers.Linked .cfs) (hok : (s.place t).Ok)
    (hkind : s.kind t ≠ .idle) (hx : (s.state t).isBlocked = false) :
    ∃ k, s.threadSchedulerKtimer t = some k ∧ s.ktimers.Linked k ∧ k ≠ .wait ∧
      (s.kind t = .cfs ∧ k = .cfs ∨ s.kind t = .rt ∧ k = .rt t) := by
  unfold threadSchedulerKtimer
  cases hk : s.kind t with
  | cfs => exact ⟨.cfs, rfl, hcfs, by simp, Or.inl ⟨rfl, rfl⟩⟩
  | rt => exact ⟨.rt t, rfl, hok.timer.mpr ⟨hk, hx⟩, by simp, Or.inr ⟨rfl, rfl⟩⟩
  | idle => exact absurd hk hkind

/-- Yielding moves no thread. -/
lemma moves_yield (h : s.Tidy) {k : Timer} (hk : s.ktimers.Linked k)
    (hkt : s.kind t = .cfs ∧ k = .cfs ∨ s.kind t = .rt ∧ k = .rt t) {q : KTimers} (hq : q.Wf)
    (hframe : KTimers.Frame (· = k) s.ktimers q) (hin : k ∈ q.inactive) :
    Moves t (s.place t) s { s with ktimers := q } := by
  have hlinked : ∀ j, q.Linked j ↔ s.ktimers.Linked j := by
    intro j
    by_cases hj : j = k
    · rw [hj]
      exact iff_of_true (Or.inr hin) hk
    · exact hframe.linked j hj
  refine (moves_ktimers (t := t) h hq (hframe.mono ?_) fun j _ => hlinked j).congr ?_
  · rintro j rfl
    rcases hkt with ⟨-, rfl⟩ | ⟨-, rfl⟩
    · exact Or.inl rfl
    · exact Or.inr (Or.inr rfl)
  · rw [hlinked]
    rfl

/-- The common part of `msleepyi` and `block_current_thread`: the thread yields its timer and
enters the wait queue with the wait entity `e`. -/
lemma park_spec (h : s.Tidy) (hcfs : s.ktimers.Linked .cfs) (hwait : s.ktimers.Linked .wait)
    (hok : (s.place t).Ok) (hkind : s.kind t ≠ .idle) (hx : (s.state t).isBlocked = false)
    (elapsed : ℕ) :
    ∃ k q, s.threadSchedulerKtimer t = some k ∧
      s.ktimers.yieldKtimer k elapsed false = .ok q ∧
      q.nowTicks = satAdd64 s.ktimers.nowTicks elapsed ∧ ∀ e : WaitEntity,
        Ends Fault.Benign
          (if s.kind t = .cfs then dequeueRunqToWaitq (setWaitEntity { s with ktimers := q } t e) t
            else dequeueKtimerqToWaitq (setWaitEntity { s with ktimers := q } t e) t)
          fun s' => Blocks t (.free (s.kind t) (waitState e.wakeAt) e.waitevt) elapsed s s' ∧
            s'.waitq.entity t = e := by
  obtain ⟨k, hk, hlinked, hkw, hkt⟩ := threadSchedulerKtimer_spec hcfs hok hkind hx
  obtain ⟨q, hyield, hq, hframe, hin, hnow, hpark, hval⟩ :=
    KTimers.yieldKtimer_spec h.ktimers hlinked hkw elapsed false
  have hframe' : KTimers.Frame (fun j => j = .wait ∨ s.threadSchedulerKtimer t = some j)
      s.ktimers q := hframe.mono fun j hj => Or.inr (hj ▸ hk)
  refine ⟨k, q, hk, hyield, hnow, fun e => ?_⟩
  have h₁ := moves_yield h hlinked hkt hq hframe hin
  have hplace : s.place t = .free (s.kind t) (s.state t) (s.waitq.entity t).waitevt :=
    hok.eq_free (ThreadState.ne_suspended hx)
  have htimed : t ∉ s.waitq.tree := fun ht => ThreadState.ne_waiting hx (hok.timed.mp ht)
  have h₂ := setWaitEntity_spec (t := t) h₁.tidy htimed e
  have hp₂ : place (setWaitEntity { s with ktimers := q } t e) t =
      .free (s.kind t) (s.state t) e.waitevt := by
    rw [h₂.self, h₁.self, hplace]
    rfl
  have hwait₂ : (setWaitEntity { s with ktimers := q } t e).ktimers.Linked .wait :=
    (h₁.linked .wait (by simp)).mpr hwait
  have hwake : (setWaitEntity { s with ktimers := q } t e).waitq.entity t = e :=
    Function.update_self ..
  rcases hkt with ⟨hcfs', rfl⟩ | ⟨hrt, rfl⟩
  · rw [hcfs'] at hp₂
    rw [if_pos hcfs']
    refine (dequeueRunqToWaitq_spec h₂.tidy hwait₂ hp₂ hx).imp
      fun s₃ ⟨h₃, hs, harmed, hw₃, hr₃⟩ => ?_
    rw [hwake] at h₃
    rw [hcfs']
    have he : s₃.waitq.entity t = e := by rw [hw₃, hwake]
    -- the parked timer is inactive, so the choice of the next one leaves it alone
    have hsame : KTimers.Same q s₃.ktimers .cfs :=
      (hs.frame.rearmed .cfs (by simp)).resolve_right fun hnew =>
        hq.notMem_inactive (hnew.cfs rfl) hin
    exact ⟨⟨h₁.trans (h₂.trans h₃), hframe'.trans (hs.frame.mono fun j hj => Or.inl hj),
      fun _ => ⟨hsame.inactive.mpr hin, by rw [hsame.entity, hpark rfl]⟩,
      hs.nowTicks.trans hnow, hs.next,
      fun hrt => absurd (hrt.symm.trans hcfs') (by decide),
      fun hrt => absurd (hrt.symm.trans hcfs') (by decide), fun hne => absurd hcfs' hne,
      fun _ => hr₃, harmed, by rw [he]; rfl⟩, he⟩
  · rw [hrt] at hp₂
    rw [if_neg (by rw [hrt]; decide)]
    obtain ⟨hexp, hrun⟩ := hval t rfl
    refine (dequeueKtimerqToWaitq_spec h₂.tidy hwait₂ hp₂ hx).imp
      fun s₃ ⟨h₃, hframe₃, hnow₃, hnext, hexp₃, hrun₃, harmed, hw₃, hr₃⟩ => ?_
    rw [hwake] at h₃
    rw [hrt]
    have he : s₃.waitq.entity t = e := by rw [hw₃, hwake]
    have htail : KTimers.Frame (fun j => j = .wait ∨ s.threadSchedulerKtimer t = some j)
        q s₃.ktimers := by
      refine hframe₃.mono fun j hj => ?_
      rcases hj with rfl | rfl
      · exact Or.inl rfl
      · exact Or.inr hk
    exact ⟨⟨h₁.trans (h₂.trans h₃), hframe'.trans htail,
      fun hcfs => absurd (hrt.symm.trans hcfs) (by decide), hnow₃.trans hnow, hnext,
      fun _ => hexp₃.trans hexp,
      fun _ => hrun₃.trans hrun, fun _ => hr₃,
      fun hcfs => absurd (hrt.symm.trans hcfs) (by decide), harmed, by rw [he]; rfl⟩, he⟩

/-- **Specification of `insert_sync_waiter`.** -/
lemma insertSyncWaiter_spec (h : s.Tidy) (hwaits : ∀ o, t ∉ s.waiters o) (o : WaitObject)
    (deadlineAt : ℕ) :
    ∃ s', s.insertSyncWaiter o t deadlineAt = .ok s' ∧ s'.ktimers = s.ktimers ∧
      s'.runq = s.runq ∧ s'.waitq = s.waitq ∧ s'.deadlineAt t = deadlineAt ∧
      Moves t { s.place t with waitsOn := (· = o) } s s' := by
  -- the new key belongs to no registered thread
  have hinc : ∀ o', Increasing (keyCmp (Function.update s.deadlineAt t deadlineAt) id)
      (s.waiters o') := by
    refine fun o' => (h.waiters o').congr fun u hu v hv => ?_
    have hut : u ≠ t := fun heq => hwaits o' (heq ▸ hu)
    have hvt : v ≠ t := fun heq => hwaits o' (heq ▸ hv)
    simp only [syncCmp, keyCmp, compareLex, compareOn, Function.update_of_ne hut,
      Function.update_of_ne hvt]
  let l := ordInsert (keyCmp (Function.update s.deadlineAt t deadlineAt) id) t (s.waiters o)
  refine ⟨{ s with deadlineAt := Function.update s.deadlineAt t deadlineAt,
                   waiters := Function.update s.waiters o l }, ?_, rfl, rfl, rfl,
    Function.update_self .., ?_⟩
  · rw [insertSyncWaiter, link_of_notMem (hwaits o), ok_bind]
    rfl
  · refine (moves_waiters (t := t) h _ _ (fun o' => ?_) (fun u hu o' => ?_)
      fun u hu => Function.update_of_ne hu ..).congr ?_
    · by_cases ho : o' = o
      · rw [ho, Function.update_self]
        have := lawfulEqCmp_keyCmp (Function.update s.deadlineAt t deadlineAt)
          Function.injective_id
        exact (hinc o).ordInsert (hwaits o)
      · rw [Function.update_of_ne ho]
        exact hinc o'
    · by_cases ho : o' = o
      · simp [ho, l, hu]
      · rw [Function.update_of_ne ho]
    · ext o'
      all_goals try rfl
      by_cases ho : o' = o
      · simp [ho, l]
      · simp [ho, hwaits o']

/-- The rest of a blocking step that does not touch the timers. -/
lemma Blocks.trans {p p' : Place} {elapsed : ℕ} {s'' : Sched} (h : Blocks t p elapsed s s')
    (h' : Moves t p' s' s'') (hk : s''.ktimers = s'.ktimers) (hr : s''.runq = s'.runq)
    (hw : s''.waitq = s'.waitq) (hp : p'.state = p.state) : Blocks t p' elapsed s s'' where
  moves := h.moves.trans h'
  frame := by
    rw [hk]
    exact h.frame
  cfs hcfs := by
    obtain ⟨hin, hexp⟩ := h.cfs hcfs
    exact ⟨by rwa [hk], by rwa [hk]⟩
  nowTicks := by rw [hk, h.nowTicks]
  next := by rw [hk, h.next]
  expireAt hrt := by rw [hk, h.expireAt hrt]
  runtime hrt := by rw [hk, h.runtime hrt]
  runq hne := by rw [hr, h.runq hne]
  runqCfs hcfs := by rw [hr, h.runqCfs hcfs]
  armed := by
    rw [WaitArmed, firstWakeAt, hk, hw]
    exact h.armed
  wakeAt := by rw [hp, hw, h.wakeAt]

/-- **Specification of `block_current_thread_on`:** the thread is suspended and registered with
the object. -/
theorem blockCurrentThreadOn_spec (h : s.Tidy) (hcfs : s.ktimers.Linked .cfs)
    (hwait : s.ktimers.Linked .wait) (hok : (s.place t).Ok) (hkind : s.kind t ≠ .idle)
    (hx : (s.state t).isBlocked = false) (hcur : s.current = some t) (o : WaitObject)
    (port : TimerPort) :
    Ends Fault.Benign (s.blockCurrentThreadOn o t port) fun r =>
      ∃ s₁, r = some (s₁.requestContextSwitch, s.threadSchedulerExpireAt t) ∧
        s₁.deadlineAt t = s.threadSchedulerExpireAt t ∧
        Blocks t (.settled (s.kind t) .suspended (some o.syncType) (· = o))
          port.elapsedTicksSinceCurrentReload s s₁ := by
  obtain ⟨k, q, hk, hyield, -, hpark⟩ :=
    park_spec h hcfs hwait hok hkind hx port.elapsedTicksSinceCurrentReload
  have hdeadline : s.threadSchedulerExpireAt t = (s.ktimers.entity k).expireAt := by
    rw [threadSchedulerExpireAt, hk]
  rw [hdeadline, blockCurrentThreadOn, blockCurrentThread, if_neg (not_not.mpr hcur)]
  simp only [hk, hyield, ok_bind]
  refine Ends.bind (P := fun r => ∃ s₁, r = some (s₁, (s.ktimers.entity k).expireAt) ∧
    Blocks t (.free (s.kind t) .suspended (some o.syncType))
      port.elapsedTicksSinceCurrentReload s s₁) ?_ ?_
  · exact (hpark ⟨u64Max, some o.syncType⟩).bind fun s₁ h₁ => ⟨s₁, rfl, h₁.1⟩
  · rintro _ ⟨s₁, rfl, h₁⟩
    have hfree : ∀ o', t ∉ s₁.waiters o' := by
      intro o' ho
      have hnone : (s₁.place t).waitsOn o' := ho
      rw [h₁.moves.self] at hnone
      exact hnone
    obtain ⟨s₂, hins, hk₂, hr₂, hw₂, hkey, h₂⟩ :=
      insertSyncWaiter_spec h₁.moves.tidy hfree o (s.ktimers.entity k).expireAt
    simp only [hins, ok_bind]
    refine ⟨s₂, rfl, hkey, h₁.trans (h₂.congr ?_) hk₂ hr₂ hw₂ rfl⟩
    rw [h₁.moves.self]
    rfl

/-- The idle thread is not blocked. -/
lemma blockCurrentThreadOn_idle (hkind : s.kind t = .idle) (hcur : s.current = some t)
    (o : WaitObject) (port : TimerPort) : s.blockCurrentThreadOn o t port = .ok none := by
  simp only [blockCurrentThreadOn, blockCurrentThread, threadSchedulerKtimer, hcur, hkind, ne_eq,
    not_true_eq_false, if_false, ok_bind]

/-- The wait entity that `msleepyi` sets. -/
def sleepEntity (s : Sched) (port : TimerPort) (ticksPerMs msec : ℕ) : WaitEntity :=
  ⟨satAdd64 (satAdd64 s.ktimers.nowTicks port.elapsedTicksSinceCurrentReload)
    (satMul32 msec ticksPerMs), none⟩

/-- **Specification of `msleepyi`.** -/
theorem msleepyi_spec (h : s.Tidy) (hcfs : s.ktimers.Linked .cfs)
    (hwait : s.ktimers.Linked .wait) (hok : (s.place t).Ok) (hkind : s.kind t ≠ .idle)
    (hx : (s.state t).isBlocked = false) (hcur : s.current = some t)
    (hiscfs : s.currentIsCfs = decide (s.kind t = .cfs)) (port : TimerPort)
    (ticksPerMs msec : ℕ) :
    Ends Fault.Benign (s.msleepyi port ticksPerMs msec) fun s' =>
      ∃ s₁, s' = s₁.requestContextSwitch ∧
        Blocks t
          (.free (s.kind t) (waitState (s.sleepEntity port ticksPerMs msec).wakeAt) none)
          port.elapsedTicksSinceCurrentReload s s₁ ∧
        s₁.waitq.entity t = s.sleepEntity port ticksPerMs msec := by
  obtain ⟨k, q, hk, hyield, hnow, hpark⟩ :=
    park_spec h hcfs hwait hok hkind hx port.elapsedTicksSinceCurrentReload
  have hpark' := hpark (s.sleepEntity port ticksPerMs msec)
  have hrun : s.msleepyi port ticksPerMs msec = s.msleepThread t port ticksPerMs msec := by
    rw [msleepyi, hcur]
  rw [hrun, msleepThread]
  simp only [hk, hyield, ok_bind, hnow]
  refine Ends.bind ?_ fun s₁ h₁ => ⟨s₁, rfl, h₁⟩
  have hbranch : (setWaitEntity { s with ktimers := q } t
      (s.sleepEntity port ticksPerMs msec)).currentIsCfs = true ↔ s.kind t = .cfs := by
    rw [← decide_eq_true_iff (p := s.kind t = .cfs), ← hiscfs]
    rfl
  simp only [← hbranch] at hpark'
  exact hpark'

/-- The idle thread does not sleep. -/
lemma msleepyi_idle (hkind : s.kind t = .idle) (hcur : s.current = some t) (port : TimerPort)
    (ticksPerMs msec : ℕ) : s.msleepyi port ticksPerMs msec = .ok s := by
  simp only [msleepyi, msleepThread, hcur, threadSchedulerKtimer, hkind]

/-- The run queue, the wait queue and the wait timer are as before. -/
structure SameQueues (s s' : Sched) : Prop where
  runq : s'.runq = s.runq
  waitq : s'.waitq = s.waitq
  wait : s'.ktimers.entity .wait = s.ktimers.entity .wait

lemma SameQueues.armed (h : SameQueues s s') (ha : s.WaitArmed) : s'.WaitArmed := by
  rw [WaitArmed, firstWakeAt, h.wait, h.waitq]
  exact ha

/-- **Specification of `yieldyi`.** -/
theorem yieldyi_spec (h : s.Tidy) (hcfs : s.ktimers.Linked .cfs) (hok : (s.place t).Ok)
    (hkind : s.kind t ≠ .idle) (hx : (s.state t).isBlocked = false) (hcur : s.current = some t)
    (port : TimerPort) :
    ∃ s₁, s.yieldyi port = .ok s₁.requestContextSwitch ∧ Moves t (s.place t) s s₁ ∧
      KTimers.Frame (fun k => s.threadSchedulerKtimer t = some k) s.ktimers s₁.ktimers ∧
      (s.kind t = .cfs → s.Parks port.elapsedTicksSinceCurrentReload s₁) ∧
      s₁.ktimers.nowTicks =
        satAdd64 s.ktimers.nowTicks port.elapsedTicksSinceCurrentReload ∧
      s₁.ktimers.next = s₁.ktimers.active.head? ∧ SameQueues s s₁ ∧
      (s.kind t = .rt → .rt t ∈ s₁.ktimers.inactive ∧
        (s₁.ktimers.entity (.rt t)).expireAt =
          s.ktimers.yieldedExpireAt t port.elapsedTicksSinceCurrentReload ∧
        s₁.ktimers.runtime t = 0) := by
  obtain ⟨k, hk, hlinked, hkw, hkt⟩ := threadSchedulerKtimer_spec hcfs hok hkind hx
  obtain ⟨q, hyield, hq, hframe, hin, hnow, hpark, hval⟩ := KTimers.yieldKtimer_spec h.ktimers
    hlinked hkw port.elapsedTicksSinceCurrentReload true
  have hframe' : KTimers.Frame (· = k) s.ktimers (q.updateNextKtimer q.firstActive) :=
    hframe.trans (KTimers.frame_next q _)
  refine ⟨{ s with ktimers := q.updateNextKtimer q.firstActive }, ?_,
    moves_yield h hlinked hkt (KTimers.wf_next hq _) hframe' hin,
    hframe'.mono fun j hj => hj ▸ hk, fun hc => ?_, hnow, rfl,
    ⟨rfl, rfl, (hframe'.same_wait (KTimers.wf_next hq _) (Ne.symm hkw)).entity⟩, fun hrt => ?_⟩
  · have hrun : s.yieldyi port = s.yieldThread t port := by rw [yieldyi, hcur]
    rw [hrun, yieldThread]
    simp only [hk, hyield, ok_bind]
  · rcases hkt with ⟨-, rfl⟩ | ⟨hrt, -⟩
    · exact ⟨hin, hpark rfl⟩
    · exact absurd (hc.symm.trans hrt) (by decide)
  · rcases hkt with ⟨hc, -⟩ | ⟨-, rfl⟩
    · exact absurd (hc.symm.trans hrt) (by decide)
    · obtain ⟨hexp, hrun⟩ := hval t rfl
      exact ⟨hin, hexp, hrun⟩

/-- The idle thread does not yield. -/
lemma yieldyi_idle (hkind : s.kind t = .idle) (hcur : s.current = some t) (port : TimerPort) :
    s.yieldyi port = .ok s := by
  simp only [yieldyi, yieldThread, hcur, threadSchedulerKtimer, hkind]

end Sched

end Rtsched

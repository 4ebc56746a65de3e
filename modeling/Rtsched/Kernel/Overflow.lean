import Rtsched.Kernel.Work
import Rtsched.Kernel.Record

/-!
The range of the CFS accounting.

A virtual runtime grows by no more than the ticks that are charged, and it is multiplied by a sum of
priorities; the bounds on the counters are therefore stated through the total of the charges.

* `Fits x Q`: the computation `x` ends in no arithmetic fault, and its value has `Q`.
* `RunQueue.Small C b r`: the counters of the threads of `C` are within the bounds for a total of
  `b` ticks; every function of the scheduler keeps them.
* `Kernel.exec_fits`: **a step whose charge leaves the total in range ends in no arithmetic fault**.
* `charges`: the runs with their totals; `Kernel.charges_in_range`: **no run overflows before 2³² +
  2 ticks have been charged**, and `Kernel.wake_overflows` is one that does then.
-/

namespace Rtsched

open Ordered Outcome

variable {β : Type}

/-- The computation ends in no arithmetic fault, and its value has `Q`. -/
abbrev Fits (x : Except Fault β) (Q : β → Prop) : Prop := Ends (· ≠ .arithmetic) x Q

/-! ### Trees and timers -/

section Tree

variable {γ : Type} [DecidableEq γ]

lemma link_fits (cmp : γ → γ → Ordering) (x : γ) (l : List γ) :
    Fits (link cmp x l) fun _ => True := by
  unfold link
  split <;> simp

lemma unlink_fits (x : γ) (l : List γ) : Fits (unlink x l) fun _ => True := by
  unfold unlink
  split <;> simp

end Tree

namespace KTimers

variable {q : KTimers} {k : Timer}

lemma insert_fits (a : Bool) : Fits (q.insert k a) fun _ => True := by
  unfold insert
  split
  · simp
  · split
    · exact (link_fits ..).bind fun _ _ => trivial
    · exact (link_fits ..).bind fun _ _ => trivial

lemma remove_fits : Fits (q.remove k) fun _ => True := by
  unfold remove
  split
  · exact (unlink_fits ..).bind fun _ _ => trivial
  · exact (unlink_fits ..).bind fun _ _ => trivial

lemma rearmActive_fits : Fits (q.rearmActive k) fun _ => True := by
  unfold rearmActive
  split
  · trivial
  · simp
  · split <;> simp

lemma refreshNextKtimer_fits : Fits q.refreshNextKtimer fun _ => True := by
  unfold refreshNextKtimer
  split
  · trivial
  · split
    · exact remove_fits.bind fun _ _ => rearmActive_fits.bind fun _ _ =>
        (insert_fits true).bind fun _ _ => trivial
    · trivial

lemma enqueueKtimer_fits : Fits (q.enqueueKtimer k) fun _ => True :=
  (insert_fits true).bind fun _ _ => refreshNextKtimer_fits

lemma removeKtimer_fits : Fits (q.removeKtimer k) fun _ => True := by
  have hdequeue : Fits (q.dequeue k) fun _ => True := remove_fits.bind fun _ _ => trivial
  refine hdequeue.bind fun q₁ _ => ?_
  split
  · exact refreshNextKtimer_fits
  · trivial

lemma programWaitKtimer_fits (firstWait : Option ℕ) :
    Fits (q.programWaitKtimer firstWait) fun _ => True := by
  refine Ends.bind (P := fun _ => True) ?_ fun _ _ => refreshNextKtimer_fits
  split
  · exact remove_fits.bind fun _ _ => insert_fits false
  · trivial

lemma yieldKtimer_fits (elapsed : ℕ) (reset : Bool) :
    Fits (q.yieldKtimer k elapsed reset) fun _ => True := by
  have hcharge : ∀ q : KTimers, Fits (q.yieldCharge k elapsed reset) fun _ => True := by
    intro q
    unfold yieldCharge
    split <;> simp
  exact remove_fits.bind fun _ _ => (hcharge _).bind fun _ _ => insert_fits false

lemma setSchedulerExpireAt_fits (expireAt : ℕ) :
    Fits (q.setSchedulerExpireAt k expireAt) fun _ => True := by
  unfold setSchedulerExpireAt
  simp only
  split
  · exact remove_fits.bind fun _ _ => (insert_fits _).bind fun _ _ => refreshNextKtimer_fits
  · split
    · exact refreshNextKtimer_fits
    · trivial

end KTimers

/-! ### The run queue -/

namespace RunQueue

variable {C : Tid → Prop} {b : ℕ} {r : RunQueue} {t : Tid}

/-- The threads of `C`, among them those that are queued, have a priority, and after `b` charged
ticks their counters are within the bounds. -/
structure Small (C : Tid → Prop) (b : ℕ) (r : RunQueue) : Prop where
  priority : ∀ t, C t → (r.entity t).priority ≠ 0
  vruntime : ∀ t, C t → (r.entity t).vruntime ≤ b
  ticks : ∀ t, C t → (r.entity t).schedTickCnt ≤ b * u32Max
  tree : ∀ t ∈ r.tree, C t
  sum_le : r.prioritySum ≤ u32Max

lemma updateFromLeftmost_keeps {r' : RunQueue} (h : r.updateFromLeftmost t = .ok r') :
    r'.prioritySum = r.prioritySum ∧ (r'.entity t).priority = (r.entity t).priority := by
  unfold updateFromLeftmost at h
  split at h
  · obtain rfl := Except.ok.inj h
    exact ⟨rfl, rfl⟩
  · obtain ⟨ticks, -, h⟩ := bind_eq_ok.mp h
    obtain rfl := Except.ok.inj h
    exact ⟨rfl, by rw [setEntity_self]⟩

/-- The products of the accounting are within 64 bits. -/
def InRange (b : ℕ) : Prop := b * u32Max ≤ u64Max

lemma cfsSchedTicks_fits (hb : InRange b) {vruntime priority prioritySum : ℕ} (hv : vruntime ≤ b)
    (hp : priority ≠ 0) (hsum : prioritySum ≤ u32Max) :
    Fits (cfsSchedTicksFromVruntime vruntime priority prioritySum) (· ≤ b * u32Max) := by
  have hmul : vruntime * prioritySum ≤ b * u32Max := Nat.mul_le_mul hv hsum
  rw [cfsSchedTicksFromVruntime, if_neg hp, if_neg (not_lt.mpr (hmul.trans hb))]
  split
  · exact Nat.zero_le _
  · exact (Nat.div_le_self _ _).trans hmul

namespace Small

lemma setEntity (h : Small C b r) {e : SchedEntity} (hp : C t → e.priority ≠ 0)
    (hv : C t → e.vruntime ≤ b) (he : C t → e.schedTickCnt ≤ b * u32Max) :
    Small C b (r.setEntity t e) := by
  refine ⟨fun u hu => ?_, fun u hu => ?_, fun u hu => ?_, h.tree, h.sum_le⟩
  · by_cases hut : u = t
    · subst hut
      rw [setEntity_self]
      exact hp hu
    · rw [setEntity_of_ne _ hut]
      exact h.priority u hu
  · by_cases hut : u = t
    · subst hut
      rw [setEntity_self]
      exact hv hu
    · rw [setEntity_of_ne _ hut]
      exact h.vruntime u hu
  · by_cases hut : u = t
    · subst hut
      rw [setEntity_self]
      exact he hu
    · rw [setEntity_of_ne _ hut]
      exact h.ticks u hu

lemma mono (h : Small C b r) {b' : ℕ} (hb : b ≤ b') : Small C b' r :=
  ⟨h.priority, fun t ht => (h.vruntime t ht).trans hb,
    fun t ht => (h.ticks t ht).trans (Nat.mul_le_mul_right _ hb), h.tree, h.sum_le⟩

/-- A queue with other members. -/
lemma withTree (h : Small C b r) {l : List Tid} (hl : ∀ t ∈ l, C t) :
    Small C b { r with tree := l } := ⟨h.priority, h.vruntime, h.ticks, hl, h.sum_le⟩

lemma withSum (h : Small C b r) {n : ℕ} (hn : n ≤ u32Max) :
    Small C b { r with prioritySum := n } := ⟨h.priority, h.vruntime, h.ticks, h.tree, hn⟩

lemma insert (h : Small C b r) (ht : C t) : Fits (r.insert t) (Small C b) := by
  unfold RunQueue.insert link
  split
  · simp
  · refine h.withTree fun u hu => ?_
    rcases mem_ordInsert.mp hu with rfl | hu
    · exact ht
    · exact h.tree u hu

lemma remove (h : Small C b r) : Fits (r.remove t) (Small C b) := by
  unfold RunQueue.remove unlink
  split
  · exact h.withTree fun u hu => h.tree u (List.mem_of_mem_erase hu)
  · simp

lemma updateFromLeftmost (h : Small C b r) (hb : InRange b) (ht : C t) :
    Fits (r.updateFromLeftmost t) (Small C b) := by
  unfold RunQueue.updateFromLeftmost
  split
  · exact h
  · rename_i leftmost hhead
    have hv := h.vruntime leftmost (h.tree leftmost (List.mem_of_mem_head? hhead))
    refine (cfsSchedTicks_fits hb hv (h.priority t ht) h.sum_le).bind fun ticks hticks => ?_
    exact h.setEntity (fun _ => h.priority t ht) (fun _ => hv) fun _ => hticks

/-- The loop keeps the bounds, by induction on the entities that are left to pop. -/
lemma rebuild (hb : InRange b) (popped : List Tid) (hpopped : ∀ t ∈ popped, C t)
    (h : Small C b r) : Fits (r.rebuild popped) (Small C b) := by
  induction popped generalizing r with
  | nil => exact h
  | cons t popped ih =>
      have ht := hpopped t List.mem_cons_self
      refine (cfsSchedTicks_fits hb (h.vruntime t ht) (h.priority t ht) h.sum_le).bind
        fun ticks hticks => ?_
      have hset : Small C b (r.setEntity t { r.entity t with schedTickCnt := ticks }) :=
        h.setEntity (fun _ => h.priority t ht) (fun _ => h.vruntime t ht) fun _ => hticks
      exact (hset.insert ht).bind fun r₁ h₁ =>
        ih (fun u hu => hpopped u (List.mem_cons_of_mem _ hu)) h₁

lemma enqueueFromWaitq (h : Small C b r) (hb : InRange b) (ht : C t) :
    Fits (r.enqueueFromWaitq t) (Small C b) := by
  unfold RunQueue.enqueueFromWaitq
  split
  · simp
  · have hsum : satAdd32 r.prioritySum (r.entity t).priority ≤ u32Max := min_le_right _ _
    refine Ends.bind (rebuild hb r.tree h.tree ((h.withSum hsum).withTree (by simp)))
      fun r₁ h₁ => ?_
    exact (h₁.updateFromLeftmost hb ht).bind fun r₂ h₂ => h₂.insert ht

lemma enqueueThread (h : Small C b r) (hb : InRange b) (ht : C t)
    (hsum : r.prioritySum + (r.entity t).priority ≤ u32Max) :
    Fits (r.enqueueThread t) (Small C b) := by
  unfold RunQueue.enqueueThread
  split
  · simp
  · refine (h.updateFromLeftmost hb ht).named.bind fun r₁ ⟨hrun₁, h₁⟩ => ?_
    refine (h₁.insert ht).named.bind fun r₂ ⟨hrun₂, h₂⟩ => ?_
    obtain ⟨hsum₁, hprio₁⟩ := updateFromLeftmost_keeps hrun₁
    obtain ⟨l, -, hrun₂⟩ := bind_eq_ok.mp hrun₂
    obtain rfl := Except.ok.inj hrun₂
    have hle : r₁.prioritySum + (r₁.entity t).priority ≤ u32Max := by rwa [hsum₁, hprio₁]
    rw [if_neg (not_lt.mpr hle)]
    exact h₂.withSum hle

lemma charge (h : Small C b r) {elapsed : ℕ} (hsum : r.prioritySum ≠ 0)
    (hb : InRange (b + elapsed)) (ht : C t) (helapsed : elapsed ≤ u32Max)
    (hp : (r.entity t).priority ≤ r.prioritySum) :
    Fits (r.charge t elapsed) (Small C (b + elapsed)) := by
  have hrange : b * u32Max + elapsed ≤ (b + elapsed) * u32Max := by
    rw [Nat.add_mul]
    exact Nat.add_le_add_left (Nat.le_mul_of_pos_right _ (by decide)) _
  have hsmall : b + elapsed ≤ (b + elapsed) * u32Max := Nat.le_mul_of_pos_right _ (by decide)
  have hpositive := h.priority t ht
  have hv := h.vruntime t ht
  have hticks := h.ticks t ht
  have hmul : elapsed * (r.entity t).priority ≤ u64Max :=
    (Nat.mul_le_mul helapsed (hp.trans h.sum_le)).trans (by decide)
  have hdelta : elapsed * (r.entity t).priority / r.prioritySum ≤ elapsed :=
    Nat.div_le_of_le_mul (by rw [Nat.mul_comm]; exact Nat.mul_le_mul_right _ hp)
  rw [RunQueue.charge, if_neg hsum]
  dsimp only
  rw [cfsVruntimeDelta, if_neg hpositive, if_neg hsum, if_neg (not_lt.mpr hmul), ok_bind,
    if_neg (by rw [InRange] at hb; omega)]
  refine (h.mono (Nat.le_add_right _ _)).setEntity (fun _ => hpositive) (fun _ => ?_) fun _ => ?_
  · exact Nat.add_le_add hv hdelta
  · exact (Nat.add_le_add_right hticks _).trans hrange

end Small

end RunQueue

/-! ### The scheduler -/

namespace Sched

variable {s : Sched} {t : Tid} {b : ℕ}

/-- The counters of the CFS threads are within the bounds. -/
abbrev Small (b : ℕ) (s : Sched) : Prop := s.runq.Small (fun t => s.kind t = .cfs) b

lemma setState_fits (h : s.Small b) (x : ThreadState) : Fits (s.setState t x) (Small b) := by
  unfold setState
  split
  · exact h
  · simp

lemma programWaitKtimer_fits (h : s.Small b) : Fits s.programWaitKtimer (Small b) :=
  (KTimers.programWaitKtimer_fits _).bind fun _ _ => h

lemma insertWaitThread_fits (h : s.Small b) : Fits (s.insertWaitThread t) (Small b) := by
  unfold insertWaitThread
  split
  · simp
  · split
    · refine (setState_fits h _).bind fun s₁ h₁ => ?_
      split
      · simp
      · exact h₁
    · exact (setState_fits h _).bind fun s₁ h₁ => (link_fits ..).bind fun _ _ => h₁

lemma removeWaitThread_fits (h : s.Small b) : Fits (s.removeWaitThread t) (Small b) := by
  unfold removeWaitThread
  split
  · simp
  · split
    · exact (unlink_fits ..).bind fun _ _ => h
    · exact (unlink_fits ..).bind fun _ _ => h

lemma dequeueRunqToWaitq_fits (h : s.Small b) : Fits (s.dequeueRunqToWaitq t) (Small b) := by
  unfold dequeueRunqToWaitq
  split
  · simp
  · refine Ends.bind (P := Small b) ?_ fun s₁ h₁ => ?_
    · split
      · exact h.remove.bind fun _ hr => hr
      · exact h
    · refine (insertWaitThread_fits h₁).bind fun s₂ h₂ => ?_
      exact programWaitKtimer_fits (h₂.withSum ((Nat.sub_le _ _).trans h₂.sum_le))

lemma dequeueKtimerqToWaitq_fits (h : s.Small b) :
    Fits (s.dequeueKtimerqToWaitq t) (Small b) := by
  unfold dequeueKtimerqToWaitq
  split
  · exact h
  · exact KTimers.removeKtimer_fits.bind fun q _ =>
      (insertWaitThread_fits (s := { s with ktimers := q }) h).bind fun _ h₁ =>
        programWaitKtimer_fits h₁

lemma enqueueRunqFromWaitq_fits (h : s.Small b) (hb : RunQueue.InRange b) :
    Fits (s.enqueueRunqFromWaitq t) (Small b) := by
  unfold enqueueRunqFromWaitq
  split
  · simp
  · rename_i hkind
    split
    · simp
    · unfold setState
      split
      · exact (h.enqueueFromWaitq hb (not_not.mp hkind)).bind fun _ hr => hr
      · simp

lemma enqueueKtimerqFromWaitq_fits (h : s.Small b) :
    Fits (s.enqueueKtimerqFromWaitq t) (Small b) := by
  unfold enqueueKtimerqFromWaitq
  split
  · exact h
  · exact (removeWaitThread_fits h).bind fun _ h₁ => (setState_fits h₁ _).bind fun s₂ h₂ =>
      KTimers.enqueueKtimer_fits.bind fun q _ =>
        programWaitKtimer_fits (s := { s₂ with ktimers := q }) h₂

lemma blockCurrentThreadOn_fits (h : s.Small b) (o : WaitObject) (port : TimerPort) :
    Fits (s.blockCurrentThreadOn o t port) fun r => ∀ p ∈ r, p.1.Small b := by
  refine Ends.bind (P := fun r => ∀ p ∈ r, p.1.Small b) ?_ fun r hr => ?_
  · unfold blockCurrentThread
    split
    · simp
    · split
      · simp
      · refine (KTimers.yieldKtimer_fits _ _).bind fun q _ => ?_
        refine Ends.bind (P := Small b) ?_ fun s₁ h₁ => by simpa using h₁
        split
        · exact dequeueRunqToWaitq_fits (s := setWaitEntity { s with ktimers := q } t _) h
        · exact dequeueKtimerqToWaitq_fits (s := setWaitEntity { s with ktimers := q } t _) h
  · split
    · simp
    · rename_i s₁ d
      have h₁ := hr _ rfl
      refine Ends.bind (P := Small b) ?_ fun s₂ h₂ => ?_
      · exact (link_fits ..).bind fun _ _ => h₁
      · rintro _ ⟨⟩
        exact h₂

lemma wakeWaiter_fits (h : s.Small b) (hb : RunQueue.InRange b) :
    Fits (s.wakeWaiter t) (Small b) := by
  unfold wakeWaiter
  split
  · exact (removeWaitThread_fits h).bind fun _ h₁ => (enqueueRunqFromWaitq_fits h₁ hb).bind
      fun _ h₂ => programWaitKtimer_fits h₂
  · exact enqueueKtimerqFromWaitq_fits h
  · exact h

lemma wakeFirst_fits (h : s.Small b) (hb : RunQueue.InRange b) (o : WaitObject) :
    Fits (s.wakeFirst o) fun r => r.1.Small b := by
  have hwake : ∀ s : Sched, s.Small b → ∀ waiter, Fits (s.wake waiter) (Small b) := by
    intro s h waiter
    unfold wake
    split
    · exact h
    · exact (wakeWaiter_fits h hb).bind fun _ h₁ => h₁
  refine Ends.bind (P := fun r => r.1.Small b) ?_ fun r hr => ?_
  · unfold popWaitingThread
    split
    · exact h
    · split
      · exact h
      · simp
  · exact (hwake _ hr _).bind fun _ h₁ => h₁

lemma setThreadSchedulerExpireAt_fits (h : s.Small b) (expireAt : ℕ) :
    Fits (s.setThreadSchedulerExpireAt t expireAt) (Small b) := by
  unfold setThreadSchedulerExpireAt
  split
  · exact h
  · exact (KTimers.setSchedulerExpireAt_fits _).bind fun _ _ => h

lemma yieldyi_fits (h : s.Small b) (port : TimerPort) : Fits (s.yieldyi port) (Small b) := by
  unfold yieldyi
  split
  · simp
  · unfold yieldThread
    split
    · exact h
    · exact (KTimers.yieldKtimer_fits _ _).bind fun _ _ => h

lemma msleepyi_fits (h : s.Small b) (port : TimerPort) (ticksPerMs msec : ℕ) :
    Fits (s.msleepyi port ticksPerMs msec) (Small b) := by
  unfold msleepyi
  split
  · simp
  · unfold msleepThread
    split
    · exact h
    · refine (KTimers.yieldKtimer_fits _ _).bind fun q _ => ?_
      refine Ends.bind (P := Small b) ?_ fun s₁ h₁ => h₁
      split
      · exact dequeueRunqToWaitq_fits (s := setWaitEntity { s with ktimers := q } _ _) h
      · exact dequeueKtimerqToWaitq_fits (s := setWaitEntity { s with ktimers := q } _ _) h

/-! ### Ticks -/

lemma wakeTimed_fits (h : s.Small b) (hb : RunQueue.InRange b) (elapsed : ℕ) :
    Fits (s.wakeTimed t elapsed) (Small b) := by
  unfold wakeTimed
  split
  · exact enqueueRunqFromWaitq_fits h hb
  · exact (KTimers.insert_fits true).bind fun _ _ => h
  · exact h

lemma wakeWaitThread_fits (hb : RunQueue.InRange b) (elapsed n : ℕ) (h : s.Small b) :
    Fits (wakeWaitThread elapsed n s) (Small b) := by
  induction n generalizing s with
  | zero => exact h
  | succ n ih =>
      unfold wakeWaitThread
      split
      · exact h
      · split
        · refine Ends.bind (setState_fits ?_ _) fun _ h₁ =>
            (wakeTimed_fits h₁ hb elapsed).bind fun _ h₂ => ih h₂
          exact h
        · exact h

lemma dispatchTimer_fits (h : s.Small b) (hb : RunQueue.InRange b) (k : Timer) (elapsed : ℕ) :
    Fits (s.dispatchTimer k elapsed) (Small b) := by
  unfold dispatchTimer
  split
  · exact (wakeWaitThread_fits hb elapsed _ h).bind fun _ h₁ =>
      (KTimers.insert_fits false).bind fun _ _ => h₁
  · refine Ends.bind (P := fun _ => True) ?_ fun _ _ => h
    split
    · exact KTimers.insert_fits false
    · exact KTimers.insert_fits true
  · split
    · simp
    · exact (KTimers.insert_fits true).bind fun _ _ => h

lemma dispatchExpired_fits (hb : RunQueue.InRange b) (elapsed n : ℕ) (h : s.Small b) :
    Fits (dispatchExpired elapsed n s) (Small b) := by
  induction n generalizing s with
  | zero => simp [dispatchExpired]
  | succ n ih =>
      unfold dispatchExpired
      split
      · exact h
      · split
        · exact KTimers.remove_fits.bind fun q _ =>
            (dispatchTimer_fits (s := { s with ktimers := q }) h hb _ elapsed).bind
              fun _ h₁ => ih h₁
        · exact h

lemma handleSchedTick_fits (h : s.Small b) (hb : RunQueue.InRange b) (port : TimerPort)
    (fuel : ℕ) : Fits (s.handleSchedTick port fuel) (Small b) := by
  unfold handleSchedTick
  split
  · refine Ends.bind (dispatchExpired_fits hb _ fuel ?_) fun _ h₁ => ?_
    · exact h
    · exact h₁
  · exact h

/-! ### Creating threads -/

/-- A new thread that is no CFS thread. -/
lemma initThread_small (h : s.Small b) (ht : t ∉ s.runq.tree) (kind : ThreadKind)
    (hkind : kind ≠ .cfs) : (s.initThread t kind).Small b := by
  have hold : ∀ u, (s.initThread t kind).kind u = .cfs → s.kind u = .cfs := by
    intro u hu
    by_cases hut : u = t
    · exact absurd (by simpa [initThread, setWaitEntity, hut] using hu) hkind
    · simpa [initThread, setWaitEntity, hut] using hu
  refine ⟨fun u hu => h.priority u (hold u hu), fun u hu => h.vruntime u (hold u hu),
    fun u hu => h.ticks u (hold u hu), fun u hu => ?_, h.sum_le⟩
  have hut : u ≠ t := fun heq => ht (heq ▸ hu)
  simpa [initThread, setWaitEntity, hut] using h.tree u hu

lemma spawnCfs_fits (h : s.Small b) (hb : RunQueue.InRange b) {priority : ℕ}
    (hsum : s.runq.prioritySum + priority ≤ u32Max) : Fits (s.spawnCfs t priority) (Small b) := by
  unfold spawnCfs
  split
  · simp
  · rename_i hp
    let C : Tid → Prop := fun u => (s.initThread t .cfs).kind u = .cfs
    have hself : C t := by simp [C, initThread, setWaitEntity]
    have hold : ∀ u ≠ t, C u → s.kind u = .cfs := by
      intro u hut hu
      simpa [C, initThread, setWaitEntity, hut] using hu
    have hentity : ∀ u ≠ t, (s.runq.setEntity t ⟨0, 0, priority⟩).entity u = s.runq.entity u :=
      fun u hut => RunQueue.setEntity_of_ne _ hut _
    have hnew : RunQueue.Small C b (s.runq.setEntity t ⟨0, 0, priority⟩) := by
      refine ⟨fun u hu => ?_, fun u hu => ?_, fun u hu => ?_, fun u hu => ?_, h.sum_le⟩
      · by_cases hut : u = t
        · rw [hut, RunQueue.setEntity_self]
          exact hp
        · rw [hentity u hut]
          exact h.priority u (hold u hut hu)
      · by_cases hut : u = t
        · rw [hut, RunQueue.setEntity_self]
          exact Nat.zero_le _
        · rw [hentity u hut]
          exact h.vruntime u (hold u hut hu)
      · by_cases hut : u = t
        · rw [hut, RunQueue.setEntity_self]
          exact Nat.zero_le _
        · rw [hentity u hut]
          exact h.ticks u (hold u hut hu)
      · by_cases hut : u = t
        · exact hut ▸ hself
        · simpa [C, initThread, setWaitEntity, hut] using h.tree u hu
    dsimp only
    unfold setState
    split
    · rw [ok_bind]
      refine Ends.bind (hnew.enqueueThread hb hself ?_) fun r hr => hr
      rw [RunQueue.setEntity_self]
      exact hsum
    · simp

lemma spawnRt_fits (h : s.Small b) (ht : t ∉ s.runq.tree) (timing : RtTiming) :
    Fits (s.spawnRt t timing) (Small b) :=
  KTimers.enqueueKtimer_fits.bind fun _ _ =>
    initThread_small h ht .rt (by decide)

lemma spawnMainThread_fits (h : s.Small b) (ht : t ∉ s.runq.tree) :
    Fits (s.spawnMainThread t) (Small b) := by
  have hnew := initThread_small h ht .idle (by decide)
  refine Ends.bind (P := Small b) (setState_fits ?_ _) fun _ h₁ => ?_
  · exact hnew
  · exact h₁

/-! ### Switching -/

/-- The CFS thread that is current is one. -/
def CurrentCfs (s : Sched) : Prop :=
  ∀ c, s.current = some c → s.currentIsCfs = true → s.kind c = .cfs

/-- The ticks that `schedule` charges to the current thread. -/
def chargedTicks (s : Sched) (c : Tid) (elapsed : ℕ) : ℕ :=
  if s.currentIsCfs && s.state c = .running && !s.isIdleThread c && s.runq.prioritySum ≠ 0
  then elapsed else 0

lemma chargeCurrent_fits (h : s.Small b) (hcur : s.CurrentCfs) {c : Tid} (hc : s.current = some c)
    {elapsed : ℕ} (hb : RunQueue.InRange (b + s.chargedTicks c elapsed))
    (helapsed : elapsed ≤ u32Max) (hp : s.kind c = .cfs → s.state c = .running →
      (s.runq.entity c).priority ≤ s.runq.prioritySum) :
    Fits (s.chargeCurrent c elapsed) (Small (b + s.chargedTicks c elapsed)) := by
  unfold chargeCurrent
  split
  · rename_i hruns
    by_cases hsum : s.runq.prioritySum = 0
    · rw [RunQueue.charge, if_pos hsum]
      exact h.mono (Nat.le_add_right _ _)
    · rw [chargedTicks, if_pos (by simp [hruns, hsum])] at hb ⊢
      simp only [Bool.and_eq_true, decide_eq_true_eq] at hruns
      have hkind := hcur c hc hruns.1.1
      exact (h.charge hsum hb hkind helapsed (hp hkind hruns.1.2)).bind fun _ hr => hr
  · exact h.mono (Nat.le_add_right _ _)

lemma readyUnlessBlocked_fits (h : s.Small b) : Fits (s.readyUnlessBlocked t) (Small b) := by
  unfold readyUnlessBlocked
  split
  · exact h
  · exact setState_fits h _

lemma leaveCurrent_fits (h : s.Small b) : Fits (s.leaveCurrent t) (Small b) := by
  unfold leaveCurrent
  split
  · exact h
  · split
    · exact h
    · exact readyUnlessBlocked_fits h

lemma switchToCfsThread_fits (h : s.Small b) : Fits (s.switchToCfsThread t) (Small b) :=
  (leaveCurrent_fits h).bind fun _ h₁ => (setState_fits h₁ _).bind fun _ h₂ => h₂

lemma switchToIdle_fits (h : s.Small b) (hcur : s.CurrentCfs) :
    Fits s.switchToIdleThreadWithCurrentRequeued (Small b) := by
  refine Ends.bind (P := Small b) ?_ fun s₁ h₁ => ?_
  · unfold requeueCurrentCfsThreadBeforeIdle
    split
    · rename_i c _ hc
      split
      · exact h
      · rename_i hcfs
        split
        · simp
        · have hkind : s.kind c = .cfs := hcur c hc (by simp_all)
          unfold setState
          split
          · exact (h.insert hkind).bind fun _ hr => hr
          · simp
    · exact h
  · unfold switchToIdleThread
    split
    · exact h₁
    · exact (leaveCurrent_fits h₁).bind fun _ h₂ => (setState_fits h₂ _).bind fun _ h₃ => h₃

lemma runPopped_fits (h : s.Small b) (hcur : s.CurrentCfs) {c next : Tid}
    (hc : s.current = some c) (hnext : s.kind next = .cfs) :
    Fits (s.runPopped c next) (Small b) := by
  unfold runPopped
  split
  · rename_i hcfs
    split
    · exact switchToCfsThread_fits h
    · split
      · simp
      · split
        · unfold setState
          split
          · exact (h.insert (hcur c hc hcfs)).bind fun r hr => by
              split
              · exact hr
              · simp
          · simp
        · exact (h.insert hnext).bind fun _ hr => hr
  · exact (readyUnlessBlocked_fits h).bind fun _ h₁ => switchToCfsThread_fits h₁

lemma switchToRtThread_fits (h : s.Small b) (hcur : s.CurrentCfs) {c next : Tid}
    (hc : s.current = some c) : Fits (s.switchToRtThread c next) (Small b) := by
  refine Ends.bind (P := Small b) ?_ fun s₁ h₁ => (setState_fits h₁ _).bind fun _ h₂ => h₂
  unfold requeueCurrent
  split
  · exact h
  · unfold setState
    split
    · rw [ok_bind]
      split
      · rename_i hcfs
        simp only [Bool.and_eq_true] at hcfs
        exact (h.insert (hcur c hc hcfs.1)).bind fun _ hr => hr
      · exact h
    · simp

lemma pickNext_fits (h : s.Small b) (hcur : s.CurrentCfs) {c : Tid} (hc : s.current = some c) :
    Fits (s.pickNext c) (Small b) := by
  unfold pickNext
  split
  · exact switchToIdle_fits h hcur
  · split
    · split
      · exact switchToIdle_fits h hcur
      · rename_i next l htree
        refine runPopped_fits (s := { s with runq := { s.runq with tree := l } }) ?_ hcur hc ?_
        · exact h.withTree fun u hu => h.tree u (htree ▸ List.mem_cons_of_mem _ hu)
        · exact h.tree next (htree ▸ List.mem_cons_self)
    · exact switchToIdle_fits h hcur
  · simp
  · exact switchToRtThread_fits h hcur hc

end Sched

/-! ### The kernel -/

/-- The priority of a CFS thread that a step creates. -/
def Event.newPriority {α : Type} : Event α → ℕ
  | .spawnCfs _ priority => priority
  | _ => 0

namespace Ring

variable {α : Type} {r : Ring α}

lemma checkedSub_fits (m n : ℕ) : Fits (checkedSub m n) fun _ => True := by
  unfold checkedSub
  split <;> simp

lemma checkedAdd_fits (usizeMax m n : ℕ) : Fits (checkedAdd usizeMax m n) fun _ => True := by
  unfold checkedAdd
  split <;> simp

lemma pushBack_fits (x : α) : Fits (r.pushBack x) fun _ => True := by
  unfold pushBack
  split
  · trivial
  · refine (checkedSub_fits ..).bind fun untilEnd _ => ?_
    refine Ends.bind (P := fun _ => True) ?_ fun tail _ => ?_
    · split
      · exact checkedAdd_fits ..
      · exact checkedSub_fits ..
    · refine Ends.bind (P := fun _ => True) ?_ fun r₁ _ => ?_
      · unfold write
        split <;> simp
      · exact (checkedAdd_fits ..).bind fun _ _ => trivial

lemma popFront_fits : Fits r.popFront fun _ => True := by
  unfold popFront
  split
  · trivial
  · refine Ends.bind (P := fun _ => True) ?_ fun r₁ _ => ?_
    · unfold read
      split
      · split <;> simp
      · simp
    · refine (checkedSub_fits ..).bind fun last _ => ?_
      refine Ends.bind (P := fun _ => True) ?_ fun head _ =>
        (checkedSub_fits ..).bind fun _ _ => trivial
      split
      · trivial
      · exact checkedAdd_fits ..

end Ring

namespace Kernel

variable {α : Type} {k : Kernel α} {b : ℕ}

/-- The counters of the CFS threads are within the bounds. -/
abbrev Small (b : ℕ) (k : Kernel α) : Prop := k.sched.Small b

lemma blockOn_fits (h : k.Small b) (o : WaitObject) (t : Tid) (port : TimerPort) :
    Fits (k.blockOn o t port) fun r => r.1.Small b := by
  refine (Sched.blockCurrentThreadOn_fits h o port).bind fun r hr => ?_
  split
  · exact h
  · exact hr _ rfl

lemma take_fits (h : k.Small b) (i : SemaphoreId) (port : TimerPort) :
    Fits (k.take i port) fun r => r.1.Small b := by
  unfold take
  split
  · exact h
  · split
    · exact h
    · exact (blockOn_fits h ..).bind fun _ h₁ => h₁

lemma give_fits (h : k.Small b) (hb : RunQueue.InRange b) (i : SemaphoreId) :
    Fits (k.give i) fun r => r.1.Small b := by
  refine (Sched.wakeFirst_fits h hb _).bind fun r hr => ?_
  dsimp only
  split
  · exact hr
  · split
    · exact hr
    · exact hr

lemma lock_fits (h : k.Small b) (i : ℕ) (port : TimerPort) :
    Fits (k.lock i port) fun r => r.1.Small b := by
  have hboost : ∀ k : Kernel α, k.Small b → ∀ owner waiter d,
      Fits (k.boostOwnerDeadline i owner waiter d) (Small b) := by
    intro k h owner waiter d
    unfold boostOwnerDeadline
    dsimp only
    split
    · exact h
    · split
      · exact h
      · exact (Sched.setThreadSchedulerExpireAt_fits h _).bind fun _ h₁ => h₁
  unfold lock
  split
  · exact h
  · exact h
  · split
    · exact h
    · refine (blockOn_fits h ..).bind fun ⟨k₁, blocked⟩ h₁ => ?_
      cases blocked with
      | none => exact h₁
      | some d => exact (hboost _ h₁ _ _ _).bind fun _ h₂ => h₂

lemma unlock_fits (h : k.Small b) (hb : RunQueue.InRange b) (i : ℕ) :
    Fits (k.unlock i) fun r => r.1.Small b := by
  have hrestore : ∀ owner, Fits (k.restoreOwnerDeadline i owner) (Small b) := by
    intro owner
    unfold restoreOwnerDeadline
    dsimp only
    split
    · refine Ends.bind (P := Sched.Small b) ?_ fun _ h₁ => h₁
      split
      · exact h
      · exact Sched.setThreadSchedulerExpireAt_fits h _
    · exact h
  unfold unlock
  split
  · simp
  · exact (hrestore _).bind fun _ h₁ => (Sched.wakeFirst_fits h₁ hb _).bind fun _ h₂ => h₂

lemma trySend_fits (h : k.Small b) (hb : RunQueue.InRange b) (i : ℕ) (x : α) :
    Fits (k.trySend i x) fun r => r.1.Small b := by
  refine (Ring.pushBack_fits x).bind fun pushed _ => ?_
  split
  · exact h
  · exact (Sched.wakeFirst_fits h hb _).bind fun _ h₁ => h₁

lemma tryReceive_fits (h : k.Small b) (hb : RunQueue.InRange b) (i : ℕ) :
    Fits (k.tryReceive i) fun r => r.1.Small b := by
  refine Ring.popFront_fits.bind fun popped _ => ?_
  split
  · exact h
  · exact (Sched.wakeFirst_fits h hb _).bind fun _ h₁ => h₁

lemma block_fits (h : k.Small b) (o : WaitObject) (call : Call α) (canBlock : Bool)
    (port : TimerPort) : Fits (k.block o call canBlock port) fun r => r.1.Small b := by
  unfold block
  split
  · exact h
  · split
    · exact h
    · refine (blockOn_fits h ..).bind fun ⟨k₁, blocked⟩ h₁ => ?_
      dsimp only
      split
      · exact h₁
      · exact h₁

lemma send_fits (h : k.Small b) (hb : RunQueue.InRange b) (i : ℕ) (x : α) (canBlock : Bool)
    (port : TimerPort) : Fits (k.send i x canBlock port) fun r => r.1.Small b := by
  refine (trySend_fits h hb i x).bind fun ⟨k₁, reply⟩ h₁ => ?_
  dsimp only
  split
  · exact block_fits h₁ ..
  · exact h₁

lemma receive_fits (h : k.Small b) (hb : RunQueue.InRange b) (i : ℕ) (canBlock : Bool)
    (port : TimerPort) : Fits (k.receive i canBlock port) fun r => r.1.Small b := by
  refine (tryReceive_fits h hb i).bind fun ⟨k₁, reply⟩ h₁ => ?_
  dsimp only
  split
  · exact block_fits h₁ ..
  · exact h₁

lemma retry_fits (h : k.Small b) (hb : RunQueue.InRange b) (port : TimerPort) :
    Fits (k.retry port) fun r => r.1.Small b := by
  unfold retry
  split
  · simp
  · split
    · simp
    · exact send_fits (k := k.setCall _ none) h hb ..
    · exact receive_fits (k := k.setCall _ none) h hb ..

/-! ### Runs -/

/-- The ticks that a step charges. -/
def chargedTicks (k : Kernel α) : Event α → ℕ
  | .schedule port =>
      match k.sched.current with
      | none => 0
      | some c => k.sched.chargedTicks c (k.sched.ktimers.elapsedTicksSinceLastInterrupt port)
  | _ => 0

lemma elapsedTicksSinceLastInterrupt_le (q : KTimers) (port : TimerPort) :
    q.elapsedTicksSinceLastInterrupt port ≤ u32Max := by
  unfold KTimers.elapsedTicksSinceLastInterrupt
  split
  · exact min_le_right _ _
  · split
    · exact min_le_right _ _
    · exact Nat.zero_le _

/-- The charge of `schedule`. -/
lemma schedule_fits (hinv : k.sched.Inv) (hsummed : k.sched.Summed) (h : k.Small b)
    (hsum : k.sched.priorities k.sched.cfsThreads ≤ u32Max) (port : TimerPort)
    (hb : RunQueue.InRange (b + k.chargedTicks (.schedule port))) :
    Fits (k.sched.schedule port) (Sched.Small (b + k.chargedTicks (.schedule port))) := by
  unfold Sched.schedule
  unfold chargedTicks at hb ⊢
  cases hc : k.sched.current with
  | none => simp
  | some c =>
      simp only [hc] at hb ⊢
      have hcur : k.sched.CurrentCfs := fun c hc hcfs => by
        rw [hinv.isCfs c hc] at hcfs
        exact of_decide_eq_true hcfs
      have hp : k.sched.kind c = .cfs → k.sched.state c = .running →
          (k.sched.runq.entity c).priority ≤ k.sched.runq.prioritySum := by
        intro hkind hrun
        rw [hsummed.sum hsum]
        exact Finset.single_le_sum (f := fun u => (k.sched.runq.entity u).priority)
          (fun _ _ => Nat.zero_le _) (hinv.mem_awakeThreads.mpr ⟨hkind, by rw [hrun]; rfl⟩)
      refine (Sched.chargeCurrent_fits h hcur hc hb
        (elapsedTicksSinceLastInterrupt_le _ port) hp).named.bind fun s₁ ⟨hrun, h₁⟩ => ?_
      have hsame : s₁.current = k.sched.current ∧ s₁.CurrentCfs := by
        unfold Sched.chargeCurrent at hrun
        split at hrun
        · obtain ⟨r, -, hrun⟩ := bind_eq_ok.mp hrun
          obtain rfl := Except.ok.inj hrun
          exact ⟨rfl, hcur⟩
        · obtain rfl := Except.ok.inj hrun
          exact ⟨rfl, hcur⟩
      exact (Sched.pickNext_fits h₁ hsame.2 (hsame.1.trans hc)).bind fun _ h₂ => h₂

/-- **A step whose charge leaves the total in range ends in no arithmetic fault**, and it keeps the
bounds. -/
theorem exec_fits (hinv : k.sched.Inv) (hsummed : k.sched.Summed) (h : k.Small b) {ev : Event α}
    (hen : k.Enabled ev)
    (hsum : k.sched.priorities k.sched.cfsThreads + ev.newPriority ≤ u32Max)
    (hb : RunQueue.InRange (b + k.chargedTicks ev)) :
    Fits (k.exec ev) fun r => r.1.Small (b + k.chargedTicks ev) := by
  have hlift : ∀ {b' : ℕ} {x : Except Fault Sched}, Fits x (Sched.Small b') →
      Fits (k.lift x) fun r => r.1.Small b' := fun hx => hx.bind fun _ h₁ => h₁
  have htree : ∀ t, t ∉ k.sched.spawned → t ∉ k.sched.runq.tree := fun t ht hmem =>
    hinv.not_awake_of_fresh ht (hinv.awake_iff.mpr (Or.inl hmem))
  cases ev with
  | yieldyi port => exact hlift (Sched.yieldyi_fits h port)
  | msleepyi port ticksPerMs msec => exact hlift (Sched.msleepyi_fits h port ticksPerMs msec)
  | setRtThreadStartTime startTime =>
      change (k.sched.setRtThreadStartTime startTime).1.Small b
      unfold Sched.setRtThreadStartTime
      split
      · exact h
      · split
        · exact h
        · exact h
  | tryTake i =>
      change (k.tryTake i).1.Small b
      unfold tryTake
      split
      · exact h
      · exact h
  | take i port => exact take_fits h i port
  | give i => exact give_fits h hb i
  | tryLock i =>
      change (k.tryLock i).1.Small b
      unfold tryLock
      split
      · exact h
      · exact h
      · exact h
  | lock i port => exact lock_fits h i port
  | unlock i => exact unlock_fits h hb i
  | trySend i x => exact trySend_fits h hb i x
  | tryReceive i => exact tryReceive_fits h hb i
  | send i x canBlock port => exact send_fits h hb i x canBlock port
  | receive i canBlock port => exact receive_fits h hb i canBlock port
  | retry port => exact retry_fits h hb port
  | tick port fuel => exact hlift (Sched.handleSchedTick_fits h hb port fuel)
  | schedule port => exact hlift (schedule_fits hinv hsummed h hsum port hb)
  | spawnCfs t priority =>
      have hsub := Sched.priorities_mono (s := k.sched) hinv.awakeThreads_subset
      have hle : k.sched.priorities k.sched.cfsThreads + priority ≤ u32Max := hsum
      refine hlift (Sched.spawnCfs_fits h hb ?_)
      rw [hsummed.sum (by omega)]
      omega
  | spawnRt t timing => exact hlift (Sched.spawnRt_fits h (htree t hen.2) timing)
  | start t => exact hlift (Sched.spawnMainThread_fits h (htree t hen.2.1))

end Kernel

/-! ### The sum of all priorities -/

namespace Sched

variable {s s' : Sched}

/-- The same threads with the same priorities. -/
lemma priorities_le_of_eq (hthreads : s'.cfsThreads = s.cfsThreads)
    (hprio : ∀ u, (s'.runq.entity u).priority = (s.runq.entity u).priority) :
    s.priorities s.cfsThreads ≤ s'.priorities s'.cfsThreads := by
  rw [hthreads, priorities_congr hprio]

/-- **No action takes a priority away.** -/
lemma Act.priorities_le {l : Label} (h : s.Inv) (ha : Act l s s') :
    s.priorities s.cfsThreads ≤ s'.priorities s'.cfsThreads := by
  have h' := ha.inv h
  cases ha.cfsAct h with
  | same hrunq hkind _ _ =>
      exact priorities_le_of_eq (h.cfsThreads_eq h' hkind) fun _ => by rw [hrunq]
  | drops _ hrunq hkind _ _ =>
      exact priorities_le_of_eq (h.cfsThreads_eq h' (by simp [hkind])) fun _ => by
        rw [hrunq]
        rfl
  | joins hnodup hts hrunq hkind _ _ =>
      have hnew : ∀ t ∈ _, t ∉ s.runq.tree := fun t ht hmem =>
        (hts t ht).2 (h.awake_iff.mpr (Or.inl hmem))
      exact priorities_le_of_eq (h.cfsThreads_eq h' (by simp [hkind]))
        (prioritySum_foldlM hnodup h.tidy.runq hnew hrunq).1
  | switches _ hsw =>
      exact priorities_le_of_eq (h.cfsThreads_eq h' fun u => by rw [hsw.kind]) hsw.priority.2
  | spawns ht _ hrunq hkind _ _ =>
      rw [h.cfsThreads_insert h' hkind,
        priorities_insert (priority_spawned h ht hrunq).2.1 (h.notMem_cfsThreads ht)]
      exact Nat.le_add_left ..

lemma Path.priorities_le {ls : List Label} (h : s.Inv) (hp : Path ls s s') :
    s.priorities s.cfsThreads ≤ s'.priorities s'.cfsThreads := by
  induction hp with
  | nil => exact le_rfl
  | cons ha _ ih => exact (ha.priorities_le h).trans (ih (ha.inv h))

end Sched

namespace Kernel

variable {α : Type} {k k' : Kernel α} {ev : Event α} {reply : Reply α}

/-- A step adds the priority of the thread it creates. -/
lemma Inv.priorities_le (h : k.Inv) (hen : k.Enabled ev) (hrun : k.exec ev = .ok (k', reply)) :
    k.sched.priorities k.sched.cfsThreads + ev.newPriority ≤
      k'.sched.priorities k'.sched.cfsThreads := by
  have h' := (h.does hen hrun).inv h
  obtain ⟨ls, hpath, -⟩ := (h.does hen hrun).path
  have hle := hpath.priorities_le h.sched
  cases ev with
  | spawnCfs t priority =>
      obtain ⟨s, hspawn, hrun⟩ := bind_eq_ok.mp hrun
      obtain ⟨rfl, -⟩ := Prod.mk.inj (Except.ok.inj hrun)
      obtain ⟨hs, -, hrunq⟩ := (Sched.spawnCfs_spec h.sched.toBase hen.2.1 hen.2.2).value hspawn
      obtain ⟨hself, hother, -⟩ := Sched.priority_spawned h.sched hen.2.1 hrunq
      have hkind : ∀ u, s.kind u = .cfs ↔ k.sched.kind u = .cfs ∨ u = t := by
        intro u
        rw [Sched.kind_of_place hs.place]
        split
        · rename_i hut
          exact iff_of_true rfl (Or.inr hut)
        · rename_i hut
          exact ⟨Or.inl, fun hu => hu.resolve_right hut⟩
      change _ ≤ s.priorities s.cfsThreads
      rw [h.sched.cfsThreads_insert h'.sched hkind,
        Sched.priorities_insert hother (h.sched.notMem_cfsThreads hen.2.1), hself]
      exact (Nat.add_comm ..).le
  | _ => exact hle

end Kernel

/-! ### Runs -/

/-- A run with the total of the ticks that have been charged. -/
def charges (α : Type) : Recorder α ℕ where
  Initial := Kernel.Initial
  Admits _ _ _ := True
  start := 0
  after k total ev _ := total + k.chargedTicks ev

instance (α : Type) (k : Kernel α) (ev : Event α) (k' : Kernel α) :
    Decidable ((charges α).Admits k ev k') := instDecidableTrue

namespace Kernel

variable {α : Type} {c : Recorded α ℕ} {ev : Event α}

lemma charges_reachable (h : (charges α).Reachable c) : c.kernel.Reachable :=
  Recorder.reachable_kernel (fun _ hk => hk) h

/-- As long as the priorities fit and the total is in range, the counters are within the bounds. -/
lemma charges_small (h : (charges α).Reachable c)
    (hsum : c.kernel.sched.priorities c.kernel.sched.cfsThreads ≤ u32Max)
    (htotal : RunQueue.InRange c.record) : c.kernel.Small c.record := by
  induction h with
  | @start c h =>
      obtain ⟨layout, periodTicks, execTicks, hboot⟩ := h.initial.boot
      obtain ⟨hinv, -, hsp, -, -, -, -, hrunq⟩ := Sched.boot_base hboot
      have hnone : ∀ t, c.kernel.sched.kind t ≠ .cfs := fun t => by
        rw [(hinv.fresh t (by rw [hsp]; simp)).1]
        simp
      rw [h.record]
      refine ⟨fun t ht => absurd ht (hnone t), fun t ht => absurd ht (hnone t),
        fun t ht => absurd ht (hnone t), fun t ht => ?_, ?_⟩
      · rw [hrunq] at ht
        cases ht
      · rw [hrunq]
        exact Nat.zero_le _
  | step hr hs ih =>
      obtain ⟨ev, hs⟩ := hs
      obtain ⟨reply, hrun⟩ := hs.exec
      have hk := charges_reachable hr
      have hinv := reachable_inv hk
      have hle := hinv.priorities_le hs.enabled hrun
      rw [hs.record] at htotal ⊢
      have hbefore := ih (by omega) ((Nat.mul_le_mul_right _ (Nat.le_add_right _ _)).trans htotal)
      exact (exec_fits hinv.sched (reachable_summed hk) hbefore hs.enabled (hle.trans hsum)
        htotal).value hrun

/-- **The CFS accounting stays in range.**  In a run in which the priorities of all CFS threads fit
into 32 bits and at most 2³² + 1 ticks have been charged, the present step included, no product and
no sum of the accounting overflows. -/
theorem charges_in_range (h : (charges α).Reachable c) (hen : c.kernel.Enabled ev)
    (hsum : c.kernel.sched.priorities c.kernel.sched.cfsThreads + ev.newPriority ≤ u32Max)
    (htotal : c.record + c.kernel.chargedTicks ev ≤ 2 ^ 32 + 1) :
    c.kernel.exec ev ≠ .error .arithmetic := by
  have hrange : RunQueue.InRange (c.record + c.kernel.chargedTicks ev) :=
    (Nat.mul_le_mul_right _ htotal).trans (by decide)
  have hsmall := charges_small h (by omega)
    ((Nat.mul_le_mul_right _ (Nat.le_add_right _ _)).trans hrange)
  have hk := charges_reachable h
  intro hrun
  exact (exec_fits (reachable_inv hk).sched (reachable_summed hk) hsmall hen hsum hrange).error hrun
    rfl

/-! ### A long run -/

/-- The state with its total after given steps from boot. -/
def chargesTrial (evs : List (Event ℕ)) : Option (Recorded ℕ ℕ) :=
  (trial next []).bind fun k => evs.foldlM (charges ℕ).next ⟨k, 0⟩

lemma chargesTrial_reachable {evs : List (Event ℕ)} {c : Recorded ℕ ℕ}
    (h : chargesTrial evs = some c) : (charges ℕ).Reachable c := by
  obtain ⟨k, hk, hrun⟩ := Option.bind_eq_some_iff.mp h
  refine Runs.Reach.foldlM (fun _ ev _ hs => ⟨ev, Recorder.next_step hs⟩) (.start ⟨?_, rfl⟩) hrun
  simp only [trial, List.foldlM_nil, Option.bind_eq_bind, Option.bind_eq_some_iff] at hk
  obtain ⟨k₀, hboot, hk₀⟩ := hk
  obtain rfl := Option.some.inj hk₀
  exact booted_initial hboot

/-- The timer after the longest interval that it can be programmed for. -/
def longest : TimerPort := ⟨some 0xffffff, some 0⟩

/-- Two CFS threads, of priorities 1 and 2³² - 2; the first waits for a semaphore, and the second
runs for `n` of the longest intervals, with the idle thread between them, and for two ticks more. -/
def loneRunner (n : ℕ) : List (Event ℕ) :=
  [.spawnCfs 1 1, .spawnCfs 2 4294967294, .start 0, .tick longest 8, .schedule longest,
    .take (.binary 0) ⟨some 499, some 499⟩, .schedule longest] ++
  (List.replicate n
    [.tick longest 8, .schedule longest, .tick longest 8, .schedule longest]).flatten ++
  [.tick longest 8, .schedule longest, .tick longest 8, .schedule ⟨some 1, some 0⟩]

/-- After 256 intervals and two ticks the virtual runtime of the second thread is 2³² + 2.  Waking
the first one multiplies it by 2³² - 1, which is more than 64 bits hold. -/
theorem wake_overflows : ∃ c : Recorded ℕ ℕ, (charges ℕ).Reachable c ∧
    c.kernel.Enabled (.give (.binary 0)) ∧
    c.kernel.sched.priorities c.kernel.sched.cfsThreads ≤ u32Max ∧ c.record < 2 ^ 63 ∧
    c.record = 2 ^ 32 + 2 ∧ c.kernel.exec (.give (.binary 0)) = .error .arithmetic := by
  have htest : (chargesTrial (loneRunner 256)).any (fun c =>
      decide (c.kernel.sched.priorities c.kernel.sched.cfsThreads ≤ u32Max) &&
      c.record == 2 ^ 32 + 2 && c.kernel.fault (.give (.binary 0)) == some .arithmetic) = true := by
    decide +kernel
  obtain ⟨c, hc, htest⟩ := (Option.any_eq_true ..).mp htest
  simp only [Bool.and_eq_true, decide_eq_true_eq, beq_iff_eq] at htest
  obtain ⟨⟨hsum, htotal⟩, hfault⟩ := htest
  exact ⟨c, chargesTrial_reachable hc, trivial, hsum, by rw [htotal]; decide, htotal,
    fault_eq_some.mp hfault⟩

/-- After two intervals the same wake is in range. -/
theorem charges_in_range_short : ∃ c : Recorded ℕ ℕ, (charges ℕ).Reachable c ∧
    c.record = 2 ^ 25 + 2 ∧ c.kernel.sched.runq.tree = [2] ∧
    c.kernel.exec (.give (.binary 0)) ≠ .error .arithmetic := by
  have htest : (chargesTrial (loneRunner 2)).any (fun c =>
      decide (c.kernel.sched.priorities c.kernel.sched.cfsThreads ≤ u32Max) &&
      c.record == 2 ^ 25 + 2 && c.kernel.sched.runq.tree == [2]) = true := by decide +kernel
  obtain ⟨c, hc, htest⟩ := (Option.any_eq_true ..).mp htest
  simp only [Bool.and_eq_true, decide_eq_true_eq, beq_iff_eq] at htest
  obtain ⟨⟨hsum, htotal⟩, htree⟩ := htest
  have hreach := chargesTrial_reachable hc
  refine ⟨c, hreach, htotal, htree, charges_in_range hreach trivial hsum ?_⟩
  rw [htotal]
  change 2 ^ 25 + 2 + 0 ≤ 2 ^ 32 + 1
  norm_num

end Kernel

end Rtsched

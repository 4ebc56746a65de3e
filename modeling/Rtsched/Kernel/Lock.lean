import Rtsched.Kernel.Reach

/-!
What a contended lock does to the deadline of the owner.

`boost_owner_deadline` gives the owner's timer the earliest of the captured deadline and the queued
events, and `refresh_next_ktimer` runs on the way, when the waiter is parked, and afterwards.

* `KTimers.Rests`: a step that leaves alone the timers that are not active; all that is done to the
  timers here rests (`KTimers.refreshNextKtimer_rests` and the lemmas after it).
* `KTimers.earliest_le`: the earliest queued event is the minimum over the queue.
* `Kernel.lock_boosts`: **the owner comes first after a contended lock**, if its timer is not active
  or no queued event is due; `Kernel.boost_undone` is a lock in which an event is due.
-/

namespace Rtsched

open Ordered Outcome

namespace KTimers

variable {q q' q'' : KTimers} {k j : Timer}

/-! ### Timers that are not active -/

/-- Besides the timers of `K`, nothing about a timer that is not active has changed. -/
def Rests (K : Timer → Prop) (q q' : KTimers) : Prop := ∀ j, ¬ K j → j ∉ q.active → Same q q' j

lemma Rests.trans {K : Timer → Prop} (h : Rests K q q') (h' : Rests K q' q'') : Rests K q q'' := by
  intro j hK hj
  have hsame := h j hK hj
  exact hsame.trans (h' j hK fun hact => hj (hsame.active.mp hact))

lemma Rests.mono {K K' : Timer → Prop} (h : Rests K q q') (hK : ∀ j, K j → K' j) : Rests K' q q' :=
  fun j hj => h j fun hKj => hj (hK j hKj)

/-- A step on one timer. -/
lemma rests_of_same (h : ∀ j ≠ k, Same q q' j) : Rests (· = k) q q' := fun j hj _ => h j hj

lemma remove_same (h : q.remove k = .ok q') (hj : j ≠ k) : Same q q' j := by
  unfold remove at h
  split at h
  · obtain ⟨l, hl, h⟩ := bind_eq_ok.mp h
    obtain rfl := Except.ok.inj h
    unfold unlink at hl
    split at hl
    · obtain rfl := Except.ok.inj hl
      exact ⟨rfl, by cases j <;> rfl, List.mem_erase_of_ne hj, Iff.rfl⟩
    · cases hl
  · obtain ⟨l, hl, h⟩ := bind_eq_ok.mp h
    obtain rfl := Except.ok.inj h
    unfold unlink at hl
    split at hl
    · obtain rfl := Except.ok.inj hl
      exact ⟨rfl, by cases j <;> rfl, Iff.rfl, List.mem_erase_of_ne hj⟩
    · cases hl

lemma insert_same {a : Bool} (h : q.insert k a = .ok q') (hj : j ≠ k) : Same q q' j := by
  have hentity : ∀ e, Function.update q.entity k e j = q.entity j :=
    fun e => Function.update_of_ne hj ..
  unfold insert at h
  split at h
  · cases h
  · split at h
    · obtain ⟨l, hl, h⟩ := bind_eq_ok.mp h
      obtain rfl := Except.ok.inj h
      unfold link at hl
      split at hl
      · cases hl
      · obtain rfl := Except.ok.inj hl
        exact ⟨hentity _, by cases j <;> rfl, by simp [setEntity, hj], Iff.rfl⟩
    · obtain ⟨l, hl, h⟩ := bind_eq_ok.mp h
      obtain rfl := Except.ok.inj h
      unfold link at hl
      split at hl
      · cases hl
      · obtain rfl := Except.ok.inj hl
        exact ⟨hentity _, by cases j <;> rfl, Iff.rfl, by simp [setEntity, hj]⟩

lemma setEntity_same (e : KTimerEntity) (hj : j ≠ k) : Same q (q.setEntity k e) j :=
  ⟨Function.update_of_ne hj .., by cases j <;> rfl, Iff.rfl, Iff.rfl⟩

/-- `refresh_next_ktimer` re-arms an active timer at most. -/
lemma refreshNextKtimer_rests {K : Timer → Prop} (hq : q.Wf) (h : q.refreshNextKtimer = .ok q') :
    Rests K q q' := by
  intro j _ hj
  unfold refreshNextKtimer firstActive at h
  cases hhead : q.active.head? with
  | none =>
      simp only [hhead] at h
      obtain rfl := Except.ok.inj h
      exact same_next q _ j
  | some k =>
      have hmem : k ∈ q.active := List.mem_of_mem_head? hhead
      have hjk : j ≠ k := fun heq => hj (heq ▸ hmem)
      have hkw : k ≠ .wait := fun heq => hq.wait_notMem (heq ▸ hmem)
      simp only [hhead] at h
      split at h
      · obtain ⟨q₁, h₁, h⟩ := bind_eq_ok.mp h
        obtain ⟨q₂, h₂, h⟩ := bind_eq_ok.mp h
        obtain ⟨q₃, h₃, h⟩ := bind_eq_ok.mp h
        obtain rfl := Except.ok.inj h
        obtain ⟨hedits, -⟩ := (rearmActive_spec hkw).value h₂
        exact (remove_same h₁ hjk).trans
          ((hedits.same hjk).trans ((insert_same h₃ hjk).trans (same_next q₃ _ j)))
      · obtain rfl := Except.ok.inj h
        exact same_next q _ j

lemma removeKtimer_rests (hq : q.Wf) (hk : q.Linked k) (h : q.removeKtimer k = .ok q') :
    Rests (· = k) q q' := by
  obtain ⟨q₁, hdeq, h₁⟩ := dequeue_spec hq hk
  have hrest : Rests (· = k) q q₁ := by
    obtain ⟨q₀, hrem, hset⟩ := bind_eq_ok.mp hdeq
    obtain rfl := Except.ok.inj hset
    exact rests_of_same fun j hj => (remove_same hrem hj).trans (setEntity_same _ hj)
  rw [removeKtimer, hdeq, ok_bind] at h
  split at h
  · exact hrest.trans (refreshNextKtimer_rests h₁.1 h)
  · obtain rfl := Except.ok.inj h
    exact hrest

lemma programWaitKtimer_rests (hq : q.Wf) (hk : q.Linked .wait) {firstWait : Option ℕ}
    (h : q.programWaitKtimer firstWait = .ok q') : Rests (· = .wait) q q' := by
  unfold programWaitKtimer at h
  simp only at h
  split at h
  · obtain ⟨q₁, hrem, h₁, hins⟩ := relink_spec hq hk (a := false) fun _ => rfl
    obtain ⟨q₃, hins₃, h₃, -⟩ :=
      hins _ (edits_setEntity (e := (q₁.entity .wait).setExpireAt (waitExpireAt firstWait)) rfl)
    rw [hrem, ok_bind, enqueueInactive, hins₃, ok_bind] at h
    refine Rests.trans ?_ (refreshNextKtimer_rests h₃.wf h)
    exact rests_of_same fun j hj =>
      (remove_same hrem hj).trans ((setEntity_same _ hj).trans (insert_same hins₃ hj))
  · rw [ok_bind] at h
    exact refreshNextKtimer_rests hq h

/-- Yielding touches the timer of the thread only. -/
lemma yieldKtimer_rests (hq : q.Wf) (hk : q.Linked k) (hw : k ≠ .wait) {elapsed : ℕ} {reset : Bool}
    (h : q.yieldKtimer k elapsed reset = .ok q') : Rests (· = k) q q' := by
  obtain ⟨q₁, hrem, h₁, hins⟩ := relink_spec hq hk (a := false) fun h => absurd h hw
  obtain ⟨q₂, hcharge, h₂, -⟩ := yieldCharge_spec (q := q₁) hw elapsed reset
  have hedits : Edits k q₁ (q₂.advanceTime elapsed) :=
    h₂.trans (edits_advanceTime (h₂.now_max h₁.wf.now_le))
  obtain ⟨q₃, hins₃, -⟩ := hins _ hedits
  rw [yieldKtimer, hrem, ok_bind, hcharge, ok_bind, enqueueInactive, hins₃] at h
  obtain rfl := Except.ok.inj h
  exact rests_of_same fun j hj =>
    (remove_same hrem hj).trans ((hedits.same hj).trans (insert_same hins₃ hj))

/-- A timer that is not active gets the deadline it is given. -/
lemma setSchedulerExpireAt_of_inactive (hq : q.Wf) (hk : k ∉ q.active) {expireAt : ℕ}
    (h : q.setSchedulerExpireAt k expireAt = .ok q') :
    (q'.entity k).expireAt = expireAt := by
  unfold setSchedulerExpireAt at h
  simp only at h
  split at h
  · rename_i hcontains
    have hlinked : q.Linked k := by simpa [contains, Linked] using hcontains
    have hflag : (q.entity k).active = false := by
      simpa [hk] using hq.mem_active_iff hlinked
    obtain ⟨q₁, hrem, h₁, hins⟩ := relink_spec hq hlinked (a := false) fun _ => rfl
    obtain ⟨q₃, hins₃, h₃, -⟩ :=
      hins _ (edits_setEntity (e := (q₁.entity k).setExpireAt expireAt) rfl)
    rw [hrem, ok_bind, hflag, hins₃, ok_bind] at h
    have hsame : Same q₃ q' k := by
      refine refreshNextKtimer_rests (K := fun _ => False) h₃.wf h k id fun hmem => ?_
      exact h₃.wf.notMem_inactive hmem ((h₃.inactive k).mpr (Or.inr ⟨rfl, rfl⟩))
    rw [hsame.entity, h₃.entity_self]
    simp [setEntity, KTimerEntity.setExpireAt]
  · rename_i hcontains
    have hlinked : ¬ q.Linked k := by simpa [contains, Linked] using hcontains
    have hedits : Edits k q (q.setEntity k ((q.entity k).setExpireAt expireAt)) :=
      edits_setEntity rfl
    split at h
    · have hsame := refreshNextKtimer_rests (K := fun _ => False) (hedits.wf hq hlinked) h k id hk
      rw [hsame.entity]
      simp [setEntity, KTimerEntity.setExpireAt]
    · obtain rfl := Except.ok.inj h
      simp [setEntity, KTimerEntity.setExpireAt]

/-! ### The earliest queued event -/

lemma Wf.increasing_merged (h : q.Wf) : Increasing q.cmp (merged q.cmp q.active q.inactive) :=
  h.active.merged h.inactive fun _ hk => h.notMem_inactive hk

/-- The earliest queued event is at most as late as any queued timer but the wait timer. -/
lemma earliest_le (h : q.Wf) (hj : q.Linked j) (hw : j ≠ .wait) :
    q.earliestQueuedSchedulerExpireAt ≤ (q.entity j).expireAt := by
  have hmem : j ∈ merged q.cmp q.active q.inactive := mem_merged.mpr hj
  unfold earliestQueuedSchedulerExpireAt
  cases hfind : (merged q.cmp q.active q.inactive).find? (· ≠ .wait) with
  | none =>
      rw [List.find?_eq_none] at hfind
      exact absurd (by simpa using hw) (hfind j hmem)
  | some k =>
      obtain ⟨-, -, hleast⟩ := h.increasing_merged.find?_eq_some_iff.mp hfind
      rcases hleast j hmem (by simpa using hw) with rfl | hlt
      · exact le_rfl
      · exact expireAt_le_of_lt hlt

/-- It is later than a time at which no queued timer is due. -/
lemma lt_earliest {now : ℕ} (hcfs : q.Linked .cfs)
    (h : ∀ j, q.Linked j → j ≠ .wait → now < (q.entity j).expireAt) :
    now < q.earliestQueuedSchedulerExpireAt := by
  unfold earliestQueuedSchedulerExpireAt
  cases hfind : (merged q.cmp q.active q.inactive).find? (· ≠ .wait) with
  | none =>
      rw [List.find?_eq_none] at hfind
      exact absurd (by simp) (hfind .cfs (mem_merged.mpr hcfs))
  | some k =>
      exact h k (mem_merged.mp (List.mem_of_find?_eq_some hfind))
        (by simpa using List.find?_some hfind)

/-- A new deadline that no queued timer precedes: the other timers stay behind it. -/
lemma expireAt_le_of_set {expireAt : ℕ} (hq : q.Wf) (hw : k ≠ .wait)
    (hle : expireAt ≤ q.earliestQueuedSchedulerExpireAt)
    (h : q.setSchedulerExpireAt k expireAt = .ok q') (hj : q'.Linked j) (hjk : j ≠ k)
    (hjw : j ≠ .wait) : expireAt ≤ (q'.entity j).expireAt := by
  obtain ⟨hq', hframe, -, hnow, -⟩ := (setSchedulerExpireAt_spec hq hw expireAt).value h
  have hlinked := (hframe.linked j hjk).mp hj
  have hbefore := hle.trans (earliest_le hq hlinked hjw)
  rcases hframe.rearmed j hjk with hsame | hnew
  · rwa [hsame.entity]
  · -- the timer was due, and its new deadline is in the future
    obtain ⟨n, hn, hn', heq⟩ := hnew.expireAt
    have hexp := hnew.expired
    have hmax := hq'.now_le
    rw [heq, satAdd64]
    omega

end KTimers

/-! ### Parking the waiter -/

namespace Sched

variable {s s' : Sched} {t : Tid} {p : Place} {elapsed : ℕ}

lemma insertWaitThread_ktimers (h : s.insertWaitThread t = .ok s') : s'.ktimers = s.ktimers := by
  unfold insertWaitThread setState at h
  split at h
  · cases h
  · split at h
    · obtain ⟨s₁, h₁, h⟩ := bind_eq_ok.mp h
      split at h₁
      · obtain rfl := Except.ok.inj h₁
        split at h
        · cases h
        · obtain rfl := Except.ok.inj h
          rfl
      · cases h₁
    · obtain ⟨s₁, h₁, h⟩ := bind_eq_ok.mp h
      split at h₁
      · obtain rfl := Except.ok.inj h₁
        obtain ⟨l, -, h⟩ := bind_eq_ok.mp h
        obtain rfl := Except.ok.inj h
        rfl
      · cases h₁

lemma programWaitKtimer_rests (hq : s.ktimers.Wf) (hwait : s.ktimers.Linked .wait)
    (h : s.programWaitKtimer = .ok s') :
    KTimers.Rests (· = .wait) s.ktimers s'.ktimers := by
  obtain ⟨q, hprog, h⟩ := bind_eq_ok.mp h
  obtain rfl := Except.ok.inj h
  exact KTimers.programWaitKtimer_rests hq hwait hprog

lemma dequeueRunqToWaitq_rests (hq : s.ktimers.Wf) (hwait : s.ktimers.Linked .wait)
    (h : s.dequeueRunqToWaitq t = .ok s') :
    KTimers.Rests (· = .wait) s.ktimers s'.ktimers := by
  unfold dequeueRunqToWaitq at h
  split at h
  · cases h
  · obtain ⟨s₁, h₁, h⟩ := bind_eq_ok.mp h
    obtain ⟨s₂, h₂, h⟩ := bind_eq_ok.mp h
    have hk₁ : s₁.ktimers = s.ktimers := by
      split at h₁
      · obtain ⟨r, -, h₁⟩ := bind_eq_ok.mp h₁
        obtain rfl := Except.ok.inj h₁
        rfl
      · obtain rfl := Except.ok.inj h₁
        rfl
    have hk₂ : s₂.ktimers = s.ktimers := (insertWaitThread_ktimers h₂).trans hk₁
    have hrests := programWaitKtimer_rests (by simpa [hk₂] using hq) (by simpa [hk₂] using hwait) h
    simpa [hk₂] using hrests

lemma dequeueKtimerqToWaitq_rests (hq : s.ktimers.Wf) (hwait : s.ktimers.Linked .wait)
    (hlinked : s.ktimers.Linked (.rt t)) (hkind : s.kind t = .rt)
    (h : s.dequeueKtimerqToWaitq t = .ok s') :
    KTimers.Rests (fun k => k = .wait ∨ k = .rt t) s.ktimers s'.ktimers := by
  rw [dequeueKtimerqToWaitq, if_neg (not_not.mpr hkind)] at h
  obtain ⟨q, hrem, h⟩ := bind_eq_ok.mp h
  obtain ⟨s₂, h₂, h⟩ := bind_eq_ok.mp h
  obtain ⟨hq₁, hframe, -⟩ := (KTimers.removeKtimer_spec hq hlinked).value hrem
  have hk₂ : s₂.ktimers = q := insertWaitThread_ktimers h₂
  have hwait₂ : q.Linked .wait := (hframe.linked .wait (by simp)).mpr hwait
  have hrests := programWaitKtimer_rests (by rwa [hk₂]) (by rwa [hk₂]) h
  rw [hk₂] at hrests
  exact ((KTimers.removeKtimer_rests hq hlinked hrem).mono fun j hj => Or.inr hj).trans
    (hrests.mono fun j hj => Or.inl hj)

/-- Blocking leaves alone the timers that are not active, save that of the thread and the wait
timer. -/
lemma blockCurrentThreadOn_rests (h : s.Inv) (ha : s.Acting t) {o : WaitObject} {port : TimerPort}
    {d : ℕ} (hrun : s.blockCurrentThreadOn o t port = .ok (some (s', d))) :
    KTimers.Rests (fun k => k = .wait ∨ s.threadSchedulerKtimer t = some k)
      s.ktimers s'.ktimers := by
  obtain ⟨k, hk, hlinked, hkw, hkt⟩ := threadSchedulerKtimer_spec h.cfs (h.ok t) ha.kind ha.awake
  obtain ⟨q, hyield, hq, hframe, hin, -⟩ := KTimers.yieldKtimer_spec h.tidy.ktimers hlinked hkw
    port.elapsedTicksSinceCurrentReload false
  have hyields := KTimers.yieldKtimer_rests h.tidy.ktimers hlinked hkw hyield
  have hwait : q.Linked .wait := (hframe.linked .wait (Ne.symm hkw)).mpr h.wait
  rw [blockCurrentThreadOn, blockCurrentThread, if_neg (not_not.mpr ha.current)] at hrun
  simp only [hk, hyield, ok_bind] at hrun
  obtain ⟨r, hpark, hrun⟩ := bind_eq_ok.mp hrun
  obtain ⟨s₁, hdeq, hpark⟩ := bind_eq_ok.mp hpark
  obtain rfl := Except.ok.inj hpark
  obtain ⟨s₂, hins, hrun⟩ := bind_eq_ok.mp hrun
  obtain ⟨rfl, -⟩ : s₂.requestContextSwitch = s' ∧ _ := by simpa using hrun
  have hk₂ : s₂.ktimers = s₁.ktimers := by
    obtain ⟨l, -, hins⟩ := bind_eq_ok.mp hins
    obtain rfl := Except.ok.inj hins
    rfl
  have hdequeues : KTimers.Rests (fun j => j = .wait ∨ s.threadSchedulerKtimer t = some j)
      q s₁.ktimers := by
    rcases hkt with ⟨hcfs, rfl⟩ | ⟨hrt, rfl⟩
    · exact (dequeueRunqToWaitq_rests (s := setWaitEntity { s with ktimers := q } t _) hq hwait
        ((if_pos hcfs).symm.trans hdeq)).mono fun j hj => Or.inl hj
    · have hne : s.kind t ≠ .cfs := by simp [hrt]
      refine (dequeueKtimerqToWaitq_rests (s := setWaitEntity { s with ktimers := q } t _) hq hwait
        (Or.inr hin) hrt ((if_neg hne).symm.trans hdeq)).mono fun j hj => ?_
      rcases hj with rfl | rfl
      · exact Or.inl rfl
      · exact Or.inr hk
  have hafter : s₂.requestContextSwitch.ktimers = s₁.ktimers := hk₂
  rw [hafter]
  exact (hyields.mono fun j hj => Or.inr (hj ▸ hk)).trans hdequeues

/-- No queued event is due after `elapsed` ticks, when the thread `t` blocks: neither a timer that
is queued now nor the CFS timer as the thread leaves it. -/
structure Timely (s : Sched) (t : Tid) (elapsed : ℕ) : Prop where
  queued : ∀ k, s.ktimers.Linked k → k ≠ .wait →
    satAdd64 s.ktimers.nowTicks elapsed < (s.ktimers.entity k).expireAt
  parked : s.kind t = .cfs →
    satAdd64 s.ktimers.nowTicks elapsed < s.ktimers.parkedExpireAt elapsed

/-- The captured deadline lies ahead then. -/
lemma Timely.lt_captured (h : s.Timely t elapsed) (hinv : s.Inv) (ha : s.Acting t) :
    satAdd64 s.ktimers.nowTicks elapsed < s.threadSchedulerExpireAt t := by
  obtain ⟨j, hj, hlinked, hjw, -⟩ :=
    threadSchedulerKtimer_spec hinv.cfs (hinv.ok t) ha.kind ha.awake
  rw [threadSchedulerExpireAt, hj]
  exact h.queued j hlinked hjw

/-- No event is due once the thread is blocked. -/
lemma Timely.lt_earliest (h : s.Timely t elapsed) (hinv : s.Inv) (hb : Blocks t p elapsed s s')
    (hp : ¬ p.timer) : s'.ktimers.nowTicks < s'.ktimers.earliestQueuedSchedulerExpireAt := by
  rw [hb.nowTicks]
  refine KTimers.lt_earliest ((hb.moves.linked .cfs (by simp)).mpr hinv.cfs) fun j hj hjw => ?_
  by_cases hjt : s.threadSchedulerKtimer t = some j
  · unfold threadSchedulerKtimer at hjt
    split at hjt
    · rename_i hcfs
      obtain rfl := Option.some.inj hjt
      rw [(hb.cfs hcfs).expireAt]
      exact h.parked hcfs
    · obtain rfl := Option.some.inj hjt
      have htimer : (s'.place t).timer := hj
      rw [hb.moves.self] at htimer
      exact absurd htimer hp
    · cases hjt
  · have hK : ¬ (j = .wait ∨ s.threadSchedulerKtimer t = some j) := by simp [hjw, hjt]
    have hlt := h.queued j ((hb.frame.linked j hK).mp hj) hjw
    have hsame := hb.frame.same j hK fun hdue => by
      have hle := hdue.2
      rw [hb.nowTicks] at hle
      omega
    rwa [hsame.entity]

end Sched

/-! ### The boost -/

namespace Kernel

variable {α : Type} {k k' : Kernel α} {reply : Reply α} {i : ℕ} {port : TimerPort} {w owner : Tid}
  {x : Timer} {d : ℕ}

/-- A boost that comes before every queued event: the owner's timer comes first afterwards.  Either
the timer rests, or the boost lies ahead. -/
lemma boost_first (h : k.sched.Inv) (hx : k.sched.threadSchedulerKtimer owner = some x)
    (hmixed : ¬ (k.sched.kind owner = .cfs ∧ k.sched.kind w = .cfs))
    (hwhen : x ∉ k.sched.ktimers.active ∨ k.sched.ktimers.nowTicks < d ∧
      k.sched.ktimers.nowTicks < k.sched.ktimers.earliestQueuedSchedulerExpireAt)
    (hrun : k.boostOwnerDeadline i owner w d = .ok k') :
    k'.sched.deadlineAt = k.sched.deadlineAt ∧ (k'.sched.ktimers.entity x).expireAt ≤ d ∧
      (k'.sched.ktimers.entity x).expireAt ≤ (k.sched.ktimers.entity x).expireAt ∧
      ∀ j, k'.sched.ktimers.Linked j → j ≠ x → j ≠ .wait →
        (k'.sched.ktimers.entity x).expireAt ≤ (k'.sched.ktimers.entity j).expireAt := by
  have hq := h.tidy.ktimers
  have hxw : x ≠ .wait := by
    rintro rfl
    unfold Sched.threadSchedulerKtimer at hx
    split at hx <;> simp at hx
  have howner : k.sched.threadSchedulerExpireAt owner = (k.sched.ktimers.entity x).expireAt := by
    rw [Sched.threadSchedulerExpireAt, hx]
  unfold boostOwnerDeadline at hrun
  simp only [if_neg hmixed, howner] at hrun
  split at hrun
  · -- the owner precedes every event as it is
    rename_i hle
    obtain rfl := Except.ok.inj hrun
    obtain ⟨hled, hlee⟩ := le_min_iff.mp hle
    exact ⟨rfl, hled, le_rfl, fun j hj _ hjw => hlee.trans (KTimers.earliest_le hq hj hjw)⟩
  · rename_i hlt
    obtain ⟨s, hset, hrun⟩ := bind_eq_ok.mp hrun
    obtain rfl := Except.ok.inj hrun
    unfold Sched.setThreadSchedulerExpireAt at hset
    simp only [hx] at hset
    obtain ⟨q, hsetq, hs⟩ := bind_eq_ok.mp hset
    obtain rfl := Except.ok.inj hs
    have hexp : (q.entity x).expireAt =
        min d k.sched.ktimers.earliestQueuedSchedulerExpireAt := by
      rcases hwhen with hrest | ⟨hd, hearly⟩
      · exact KTimers.setSchedulerExpireAt_of_inactive hq hrest hsetq
      · obtain ⟨-, -, -, -, -, hkept⟩ := (KTimers.setSchedulerExpireAt_spec hq hxw _).value hsetq
        exact hkept (lt_min hd hearly)
    refine ⟨rfl, ?_, ?_, fun j hj hjx hjw => ?_⟩
    · exact hexp.trans_le (min_le_left _ _)
    · exact hexp.trans_le (not_le.mp hlt).le
    · exact hexp.trans_le (KTimers.expireAt_le_of_set hq hxw (min_le_right _ _) hsetq hj hjx hjw)

/-- Two threads that are not both CFS threads have timers of their own. -/
lemma timers_differ {s : Sched} (hne : owner ≠ w)
    (hmixed : ¬ (s.kind owner = .cfs ∧ s.kind w = .cfs))
    (hx : s.threadSchedulerKtimer owner = some x) :
    ¬ (x = .wait ∨ s.threadSchedulerKtimer w = some x) := by
  unfold Sched.threadSchedulerKtimer at hx ⊢
  cases ho : s.kind owner with
  | idle => simp [ho] at hx
  | cfs =>
      obtain rfl : Timer.cfs = x := by simpa [ho] using hx
      cases hw : s.kind w with
      | cfs => exact absurd ⟨ho, hw⟩ hmixed
      | rt => simp
      | idle => simp
  | rt =>
      obtain rfl : Timer.rt owner = x := by simpa [ho] using hx
      cases hw : s.kind w with
      | cfs => simp
      | rt => simpa using hne.symm
      | idle => simp

/-- The two parts of a contended lock. -/
lemma lock_parts (h : k.sched.Inv) (ha : k.sched.Acting w) (howner : (k.mutex i).owner = some owner)
    (hne : owner ≠ w) (hpend : k.sched.pendsv = false)
    (hrun : k.lock i port = .ok (k', reply)) :
    ∃ s, k.sched.blockCurrentThreadOn (.mutex i) w port =
        .ok (some (s, k.sched.threadSchedulerExpireAt w)) ∧
      Sched.Act (.blocks w (.mutex i) port.elapsedTicksSinceCurrentReload) k.sched s ∧
      boostOwnerDeadline { k with sched := s } i owner w (k.sched.threadSchedulerExpireAt w) =
        .ok k' := by
  simp only [lock, ha.current, howner, if_neg hne, blockOn] at hrun
  obtain ⟨⟨k₁, blocked⟩, hblock, hrun⟩ := bind_eq_ok.mp hrun
  obtain ⟨r, hpark, hblock⟩ := bind_eq_ok.mp hblock
  rcases (Sched.blockCurrentThreadOn_act h hpend ha.current (.mutex i) port).value hpark with
    ⟨-, hidle⟩ | ⟨s, rfl, hact⟩
  · exact absurd hidle ha.kind
  · obtain ⟨rfl, rfl⟩ := Prod.mk.inj (Except.ok.inj hblock)
    obtain ⟨k₂, hboost, hrun⟩ := bind_eq_ok.mp hrun
    obtain ⟨rfl, -⟩ := Prod.mk.inj (Except.ok.inj hrun)
    exact ⟨s, hpark, hact, hboost⟩

/-- **Boost effectiveness.**  A thread `w` locks a mutex that another thread owns, and not both are
CFS threads.  If the owner's timer is not active, or no queued event is due when the call advances
the clock, the owner's timer expires after the call no later than the deadline captured for `w`,
than before the call, and than any other timer in the queue but the wait timer. -/
theorem lock_boosts (h : k.Reachable) (hen : k.Enabled (.lock i port))
    (hw : k.sched.current = some w) (hkind : k.sched.kind w ≠ .idle)
    (howner : (k.mutex i).owner = some owner) (hne : owner ≠ w)
    (hx : k.sched.threadSchedulerKtimer owner = some x)
    (hmixed : ¬ (k.sched.kind owner = .cfs ∧ k.sched.kind w = .cfs))
    (hwhen : x ∉ k.sched.ktimers.active ∨
      k.sched.Timely w port.elapsedTicksSinceCurrentReload)
    (hrun : k.exec (.lock i port) = .ok (k', reply)) :
    k'.sched.deadlineAt w = k.sched.threadSchedulerExpireAt w ∧
      (k'.sched.ktimers.entity x).expireAt ≤ k'.sched.deadlineAt w ∧
      (k'.sched.ktimers.entity x).expireAt ≤ (k.sched.ktimers.entity x).expireAt ∧
      ∀ j, k'.sched.ktimers.Linked j → j ≠ x → j ≠ .wait →
        (k'.sched.ktimers.entity x).expireAt ≤ (k'.sched.ktimers.entity j).expireAt := by
  have hinv := (reachable_inv h).sched
  have ha := hinv.acting hen.1 hw hkind
  obtain ⟨s, hpark, hact, hboost⟩ := lock_parts hinv ha howner hne hen.1 hrun
  have hrests := Sched.blockCurrentThreadOn_rests hinv ha hpark
  have hinv' := hact.inv hinv
  cases hact with
  | @blocks _ s _ _ _ _ hb hkey =>
      have hkinds : ∀ t, s.kind t = k.sched.kind t := by
        intro t
        rw [Sched.kind_of_place hb.moves.place]
        split
        · rename_i heq
          rw [heq]
          rfl
        · rfl
      -- the timers of the two threads differ
      have hK : ¬ (x = .wait ∨ k.sched.threadSchedulerKtimer w = some x) :=
        timers_differ hne hmixed hx
      have hsame : KTimers.Same k.sched.ktimers s.ktimers x := by
        rcases hwhen with hrest | htimely
        · exact hrests x hK hrest
        · refine hb.frame.same x hK fun hdue => ?_
          have hlt := htimely.queued x hdue.1 fun hxw => hK (Or.inl hxw)
          rw [← hb.nowTicks] at hlt
          exact absurd hdue.2 (not_le.mpr hlt)
      have hearliest : k.sched.Timely w port.elapsedTicksSinceCurrentReload →
          s.ktimers.nowTicks < s.ktimers.earliestQueuedSchedulerExpireAt := fun htimely =>
        htimely.lt_earliest hinv hb fun htimer => absurd htimer.2 (by decide)
      have hfirst := boost_first (k := { k with sched := s.requestContextSwitch }) hinv'
        (by rw [← hx]; simp only [Sched.threadSchedulerKtimer]; rw [← hkinds]; rfl)
        (by rw [← hkinds, ← hkinds] at hmixed; exact hmixed)
        (hwhen.imp (fun hrest hact => hrest (hsame.active.mp hact)) fun htimely =>
          ⟨(hb.nowTicks.trans_lt (htimely.lt_captured hinv ha)),
            hearliest htimely⟩) hboost
      obtain ⟨hkeys, hd, hprev, hothers⟩ := hfirst
      have hkey' : k'.sched.deadlineAt w = k.sched.threadSchedulerExpireAt w := by
        rw [hkeys]
        exact hkey
      refine ⟨hkey', hd.trans_eq hkey'.symm, hprev.trans_eq ?_, hothers⟩
      exact congrArg KTimerEntity.expireAt hsame.entity

/-! ### Two locks -/

instance (s : Sched) (t : Tid) (elapsed : ℕ) : Decidable (s.Timely t elapsed) :=
  decidable_of_iff ((∀ k ∈ s.ktimers.active ++ s.ktimers.inactive, k ≠ .wait →
      satAdd64 s.ktimers.nowTicks elapsed < (s.ktimers.entity k).expireAt) ∧
    (s.kind t = .cfs → satAdd64 s.ktimers.nowTicks elapsed < s.ktimers.parkedExpireAt elapsed))
    ⟨fun h => ⟨fun k hk => h.1 k (List.mem_append.mpr hk), h.2⟩,
      fun h => ⟨fun k hk => h.queued k (List.mem_append.mp hk), h.parked⟩⟩

/-- Three RT threads: the first owns the mutex, the second is about to lock it at 169, and the timer
of the third is inactive until 170. -/
def beforeLock : List (Event ℕ) :=
  [.spawnRt 1 ⟨1000, 400, 400⟩, .spawnRt 2 ⟨400, 200, 200⟩, .spawnRt 3 ⟨120, 50, 50⟩, .start 0,
    .tick ⟨some 49, some 0⟩ 8, .schedule ⟨some 49, some 49⟩, .yieldyi ⟨some 49, some 39⟩,
    .schedule ⟨some 49, some 39⟩, .msleepyi ⟨some 109, some 99⟩ 9 11,
    .schedule ⟨some 109, some 99⟩, .lock 0 ⟨some 98, some 98⟩, .tick ⟨some 98, some 0⟩ 8,
    .schedule ⟨some 98, some 98⟩]

/-- The lock one tick later: the owner's deadline is set to 170, which is due, so the choice of the
next timer starts a new job of the owner, and its deadline goes from 400 to 570. -/
theorem boost_undone : ∃ (k k' : Kernel ℕ) (reply : Reply ℕ), k.Reachable ∧
    k.Enabled (.lock 0 ⟨some 1, some 0⟩) ∧ k.exec (.lock 0 ⟨some 1, some 0⟩) = .ok (k', reply) ∧
    k.sched.current = some 2 ∧ (k.mutex 0).owner = some 1 ∧ k.sched.kind 1 = .rt ∧
    k.sched.kind 2 = .rt ∧ k'.sched.deadlineAt 2 = 260 ∧
    (k.sched.ktimers.entity (.rt 1)).expireAt = 400 ∧
    (k'.sched.ktimers.entity (.rt 1)).expireAt = 570 :=
  exists_of_trial beforeLock _ (by decide +kernel)

/-- The lock at 169: no event is due yet, and the owner comes first at 170. -/
theorem lock_boosts_ahead : ∃ (k k' : Kernel ℕ) (reply : Reply ℕ), k.Reachable ∧
    k.exec (.lock 0 ⟨some 1, some 1⟩) = .ok (k', reply) ∧
    .rt 1 ∈ k.sched.ktimers.active ∧ k'.sched.deadlineAt 2 = 260 ∧
    (k'.sched.ktimers.entity (.rt 1)).expireAt = 170 ∧
    (k'.sched.ktimers.entity (.rt 1)).expireAt ≤ k'.sched.deadlineAt 2 := by
  obtain ⟨k, k', reply, hk, hen, hrun, hc, howner, hone, htwo, htimely, hact, hkey, hexp⟩ :=
    exists_of_trial beforeLock (.lock 0 ⟨some 1, some 1⟩)
      (P := fun k k' => k.sched.current = some 2 ∧ (k.mutex 0).owner = some 1 ∧
        k.sched.kind 1 = .rt ∧ k.sched.kind 2 = .rt ∧ k.sched.Timely 2 0 ∧
        .rt 1 ∈ k.sched.ktimers.active ∧ k'.sched.deadlineAt 2 = 260 ∧
        (k'.sched.ktimers.entity (.rt 1)).expireAt = 170) (by decide +kernel)
  have hx : k.sched.threadSchedulerKtimer 1 = some (.rt 1) := by
    rw [Sched.threadSchedulerKtimer, hone]
  have hboosts := lock_boosts hk hen hc (by simp [htwo]) howner (by decide) hx
    (by simp [hone]) (Or.inr htimely) hrun
  exact ⟨k, k', reply, hk, hrun, hact, hkey, hexp, hboosts.2.1⟩

end Kernel

end Rtsched

import Rtsched.Kernel.SpawnSpec
import Rtsched.Kernel.Step
import Mathlib.Data.Prod.Lex
import Mathlib.Data.Finset.Card
import Mathlib.Order.WellFounded

/-!
The loop of `dispatch_expired`, whose turns put back the timers they take out.

* `Sched.Dispatched`: the closed form of what the loop leaves, whatever the order of the turns.
* `Sched.Advances`: the timers that the loop re-arms expire later than now.
* `Sched.rank`: a turn with an expired timer lowers it, the timers of woken threads included.
* `Sched.dispatch_closed`: **the loop returns exactly if the timers advance, and then in the closed
  form**.
-/

namespace Rtsched

open Ordered Outcome

namespace Sched

variable {s s' : Sched} {t : Tid} {elapsed : ℕ}

/-- `dispatch_expired` with the pointer it returns, which each turn reads before it tests the first
timer. -/
def dispatchExpiredFirst (elapsed : ℕ) : ℕ → Sched → Except Fault (Sched × Option Timer)
  | 0, _ => .error .hang
  | n + 1, s =>
      let expired := s.ktimers.first
      let firstActive := s.ktimers.firstActive
      match expired with
      | none => .ok (s, firstActive)
      | some k =>
          if s.ktimers.expired k then do
            let q ← s.ktimers.remove k
            let s ← dispatchTimer { s with ktimers := q } k elapsed
            dispatchExpiredFirst elapsed n s
          else .ok (s, firstActive)

/-- The pointer is the first active timer of the queue that the loop leaves. -/
lemma dispatchExpiredFirst_eq (elapsed n : ℕ) (s : Sched) :
    dispatchExpiredFirst elapsed n s =
      dispatchExpired elapsed n s >>= fun s' => .ok (s', s'.ktimers.firstActive) := by
  induction n generalizing s with
  | zero => rfl
  | succ n ih =>
      rw [dispatchExpiredFirst, dispatchExpired]
      cases s.ktimers.first with
      | none => rfl
      | some k =>
          simp only
          split
          · simp only [ih, bind_assoc]
          · rfl

/-! ### The queue that is dispatched -/

/-- A well-formed queue: the trees are ordered, the timers of RT threads are linked as the states of
the threads tell, and the wait timer stands for the first thread of the timeout tree.  The
parameters are `u32` values and the time leaves room for them. -/
structure Dispatchable (s : Sched) : Prop where
  tidy : s.Tidy
  ok : ∀ u, (s.place u).Ok
  wait : s.ktimers.Linked .wait
  armed : s.WaitArmed
  now_le : s.ktimers.nowTicks ≤ u64Max - 2 ^ 33
  period_le : ∀ k, (s.ktimers.entity k).periodTicks ≤ u32Max
  deadline_le : ∀ k, (s.ktimers.entity k).relativeDeadlineTicks ≤ u32Max

/-- The timer is linked and expired. -/
def Expired (s : Sched) (k : Timer) : Prop :=
  s.ktimers.Linked k ∧ (s.ktimers.entity k).expireAt ≤ s.ktimers.nowTicks

instance : DecidablePred s.Expired := fun k => by
  unfold Expired KTimers.Linked
  infer_instance

/-- The wait of the thread has expired. -/
def Due (s : Sched) (t : Tid) : Prop :=
  t ∈ s.waitq.tree ∧ (s.waitq.entity t).wakeAt ≤ s.ktimers.nowTicks

/-- The runtime of an RT thread whose wait has expired. -/
def wokenRuntime (s : Sched) (t : Tid) (elapsed : ℕ) : ℕ :=
  satAdd32 (s.ktimers.runtime t) elapsed

/-- The timers that the loop re-arms expire later than now: an expired CFS timer has a period, and
an expired RT timer, or the timer of a thread that is woken with no deadline budget left, has a
deadline. -/
structure Advances (elapsed : ℕ) (s : Sched) : Prop where
  cfs : s.Expired .cfs → 0 < (s.ktimers.entity .cfs).periodTicks
  rt : ∀ t, s.Expired (.rt t) → 0 < (s.ktimers.entity (.rt t)).relativeDeadlineTicks
  woken : ∀ t, s.kind t = .rt → s.Due t →
    (s.ktimers.entity (.rt t)).relativeDeadlineTicks ≤ s.wokenRuntime t elapsed →
    0 < (s.ktimers.entity (.rt t)).relativeDeadlineTicks

/-- What `dispatch_expired` leaves.  No address of a timer occurs in it. -/
structure Dispatched (elapsed : ℕ) (s s' : Sched) : Prop where
  calm : s'.ktimers.Calm
  nowTicks : s'.ktimers.nowTicks = s.ktimers.nowTicks
  linked : ∀ k, s'.ktimers.Linked k ↔
    s.ktimers.Linked k ∨ ∃ t, k = .rt t ∧ s.kind t = .rt ∧ s.Due t
  unexpired : ∀ k, s.ktimers.Linked k → ¬ s.Expired k → KTimers.Same s.ktimers s'.ktimers k
  rt : ∀ t, s.Expired (.rt t) → .rt t ∈ s'.ktimers.active ∧ s'.ktimers.runtime t = 0 ∧
    (s'.ktimers.entity (.rt t)).expireAt =
      s.ktimers.nowTicks + (s.ktimers.entity (.rt t)).relativeDeadlineTicks
  cfs_parked : s.Expired .cfs → .cfs ∈ s.ktimers.active →
    elapsed < (s.ktimers.entity .cfs).periodTicks → .cfs ∈ s'.ktimers.inactive ∧
      (s'.ktimers.entity .cfs).expireAt =
        s.ktimers.nowTicks + ((s.ktimers.entity .cfs).periodTicks - elapsed)
  cfs_opened : s.Expired .cfs → .cfs ∈ s.ktimers.inactive ∨
    (s.ktimers.entity .cfs).periodTicks ≤ elapsed → .cfs ∈ s'.ktimers.active ∧
      (s'.ktimers.entity .cfs).expireAt =
        s.ktimers.nowTicks + (s.ktimers.entity .cfs).periodTicks
  woken : ∀ t, s.kind t = .rt → s.Due t →
    s.wokenRuntime t elapsed < (s.ktimers.entity (.rt t)).relativeDeadlineTicks →
    .rt t ∈ s'.ktimers.active ∧ s'.ktimers.runtime t = s.wokenRuntime t elapsed ∧
      (s'.ktimers.entity (.rt t)).expireAt = s.ktimers.nowTicks +
        ((s.ktimers.entity (.rt t)).relativeDeadlineTicks - s.wokenRuntime t elapsed)
  exhausted : ∀ t, s.kind t = .rt → s.Due t →
    (s.ktimers.entity (.rt t)).relativeDeadlineTicks ≤ s.wokenRuntime t elapsed →
    .rt t ∈ s'.ktimers.active ∧ s'.ktimers.runtime t = 0 ∧
      (s'.ktimers.entity (.rt t)).expireAt =
        s.ktimers.nowTicks + (s.ktimers.entity (.rt t)).relativeDeadlineTicks
  sleepers : ∀ t, t ∈ s'.waitq.tree ↔ t ∈ s.waitq.tree ∧ ¬ s.Due t
  asleep : ∀ t ∈ s'.waitq.tree, KTimers.Same s.ktimers s'.ktimers (.rt t)

namespace Dispatchable

lemma satAdd64_eq (h : s.Dispatchable) {ticks : ℕ} (hticks : ticks ≤ u32Max) :
    satAdd64 s.ktimers.nowTicks ticks = s.ktimers.nowTicks + ticks := by
  have hnow := h.now_le
  simp only [satAdd64, u64Max, u32Max] at *
  omega

lemma timedExpireAt_eq (h : s.Dispatchable) (t : Tid) (elapsed : ℕ) :
    s.timedExpireAt t elapsed = s.ktimers.nowTicks +
      ((s.ktimers.entity (.rt t)).relativeDeadlineTicks - s.wokenRuntime t elapsed) :=
  h.satAdd64_eq ((Nat.sub_le _ _).trans (h.deadline_le _))

/-- The threads of the timeout tree are those that wait. -/
lemma mem_tree (h : s.Dispatchable) : t ∈ s.waitq.tree ↔ s.state t = .waiting := (h.ok t).timed

/-- The timer of a thread that waits is in no tree. -/
lemma not_linked (h : s.Dispatchable) (ht : s.state t = .waiting) :
    ¬ s.ktimers.Linked (.rt t) := by
  intro hl
  have hblocked : (s.state t).isBlocked = false := ((h.ok t).timer.mp hl).2
  rw [ht] at hblocked
  exact absurd hblocked (by decide)

/-- A part of a tick keeps the queue well-formed. -/
lemma woken (h : s.Dispatchable) (hw : Woken elapsed s s')
    (hwait : s'.ktimers.Linked .wait ↔ s.ktimers.Linked .wait) (harmed : s'.WaitArmed) :
    s'.Dispatchable where
  tidy := hw.tidy
  ok := hw.ok
  wait := hwait.mpr h.wait
  armed := harmed
  now_le := by
    rw [hw.nowTicks]
    exact h.now_le
  period_le k := by
    rw [KTimerEntity.periodTicks, hw.frame.timing]
    exact h.period_le k
  deadline_le k := by
    rw [KTimerEntity.relativeDeadlineTicks, hw.frame.timing]
    exact h.deadline_le k

end Dispatchable

/-! ### The closed form -/

/-- The loop has come to rest. -/
structure Rests (elapsed : ℕ) (s s' : Sched) : Prop where
  start : s.Dispatchable
  final : s'.Dispatchable
  woken : Woken elapsed s s'
  linked_cfs : s'.ktimers.Linked .cfs ↔ s.ktimers.Linked .cfs
  calm : s'.ktimers.Calm

namespace Rests

/-- No linked timer is as an expired one was. -/
lemma not_same {k : Timer} (h : Rests elapsed s s') (hk : s.Expired k)
    (hsame : KTimers.Same s.ktimers s'.ktimers k) : False := by
  have hlate := h.calm k (hsame.linked.mpr hk.1)
  rw [hsame.entity, h.woken.nowTicks] at hlate
  exact absurd hk.2 (not_le.mpr hlate)

/-- The threads that stay in the timeout tree are those whose wait has not expired. -/
lemma mem_tree_iff (h : Rests elapsed s s') :
    t ∈ s'.waitq.tree ↔ t ∈ s.waitq.tree ∧ ¬ s.Due t := by
  constructor
  · intro ht
    refine ⟨h.start.mem_tree.mpr (h.woken.waiting_of_waiting (h.final.mem_tree.mp ht)),
      fun hdue => ?_⟩
    have hlate := h.final.tidy.wakeAt_lt h.final.armed h.final.wait h.calm ht
    rw [h.woken.nowTicks, h.woken.entity] at hlate
    exact absurd hdue.2 (not_le.mpr hlate)
  · rintro ⟨ht, hdue⟩
    rw [h.final.mem_tree]
    by_contra hne
    exact hdue ⟨ht, (h.woken.woken t (h.start.mem_tree.mp ht)).due hne⟩

/-- A thread whose wait has expired is awake. -/
lemma ne_waiting (h : Rests elapsed s s') (ht : s.Due t) : s'.state t ≠ .waiting := fun hs =>
  (h.mem_tree_iff.mp (h.final.mem_tree.mpr hs)).2 ht

/-- The timer of an RT thread that is woken is linked and has been set. -/
lemma woken_rt (h : Rests elapsed s s') (hkind : s.kind t = .rt) (ht : s.Due t) :
    .rt t ∈ s'.ktimers.active ∧ TimedRt elapsed s s' t :=
  (h.woken.woken t (h.start.mem_tree.mp ht.1)).rt hkind (h.ne_waiting ht)

/-- A linked timer of an RT thread is left alone, or it has been re-armed. -/
lemma same_or_renewed (h : Rests elapsed s s') (hl : s.ktimers.Linked (.rt t)) :
    KTimers.Same s.ktimers s'.ktimers (.rt t) ∨
      KTimers.Renewed s.ktimers s'.ktimers (.rt t) := by
  refine h.woken.frame.rearmed _ ?_
  rintro (hk | hk | ⟨u, hk, hu⟩)
  · cases hk
  · cases hk
  · obtain rfl : t = u := by simpa using hk
    exact h.start.not_linked hu hl

/-- An expired timer of an RT thread has been re-armed. -/
lemma renewed_rt (h : Rests elapsed s s') (ht : s.Expired (.rt t)) :
    KTimers.Renewed s.ktimers s'.ktimers (.rt t) :=
  (h.same_or_renewed ht.1).resolve_left (h.not_same ht)

/-- A timer of an RT thread that is re-armed expires at its relative deadline. -/
lemma renewed_expireAt (h : Rests elapsed s s')
    (hnew : KTimers.Renewed s.ktimers s'.ktimers (.rt t)) :
    (s'.ktimers.entity (.rt t)).expireAt =
      s.ktimers.nowTicks + (s.ktimers.entity (.rt t)).relativeDeadlineTicks := by
  obtain ⟨n, hle, hn, heq⟩ := hnew.expireAt
  rw [h.woken.nowTicks] at hn
  obtain rfl : n = s.ktimers.nowTicks := le_antisymm hn hle
  exact heq.trans (h.start.satAdd64_eq (h.start.deadline_le _))

/-- The wait timer keeps its place and its time unless it is expired. -/
lemma same_wait (h : Rests elapsed s s') (hk : ¬ s.Expired .wait) :
    KTimers.Same s.ktimers s'.ktimers .wait := by
  have hlate : s.ktimers.nowTicks < (s.ktimers.entity .wait).expireAt :=
    not_le.mp fun hle => hk ⟨h.start.wait, hle⟩
  -- no wait has expired, so the timeout tree has the same threads
  have hdue : ∀ u, ¬ s.Due u := by
    intro u hu
    rw [h.start.armed, KTimers.waitExpireAt] at hlate
    cases hfirst : s.firstWakeAt with
    | none =>
        have hnil : s.waitq.tree = [] := by simpa [firstWakeAt] using hfirst
        have hmem := hu.1
        rw [hnil] at hmem
        cases hmem
    | some n =>
        rw [hfirst] at hlate
        exact absurd ((h.start.tidy.firstWakeAt_le hfirst hu.1).trans hu.2) (not_le.mpr hlate)
  have hmem : ∀ u, u ∈ s'.waitq.tree ↔ u ∈ s.waitq.tree := fun u => by
    rw [h.mem_tree_iff, and_iff_left (hdue u)]
  have hcmp : s'.waitq.cmp = s.waitq.cmp := by
    simp only [WaitQueue.cmp, h.woken.entity]
  have hhead : s'.waitq.tree.head? = s.waitq.tree.head? := by
    refine Option.ext fun u => ?_
    rw [h.final.tidy.waitq.head?_eq_some_iff, h.start.tidy.waitq.head?_eq_some_iff, hcmp]
    simp only [hmem]
  have hexp : (s'.ktimers.entity .wait).expireAt = (s.ktimers.entity .wait).expireAt := by
    rw [h.start.armed, h.final.armed, firstWakeAt, hhead, h.woken.entity]
    rfl
  have hflag : (s'.ktimers.entity .wait).active = (s.ktimers.entity .wait).active := by
    rw [h.start.tidy.ktimers.flag_inactive _
        (h.start.wait.resolve_left h.start.tidy.ktimers.wait_notMem),
      h.final.tidy.ktimers.flag_inactive _
        (h.final.wait.resolve_left h.final.tidy.ktimers.wait_notMem)]
  exact .of_fields h.start.tidy.ktimers h.final.tidy.ktimers h.start.wait h.final.wait hexp hflag
    (h.woken.frame.timing _) rfl

/-- The CFS timer has been parked, or it has been activated, maybe after it was parked. -/
lemma cfsView_eq (h : Rests elapsed s s') (hk : s.Expired .cfs) :
    s'.ktimers.cfsView =
      if (s.ktimers.entity .cfs).active = true ∧ elapsed < (s.ktimers.entity .cfs).periodTicks then
        (false, s.ktimers.nowTicks + ((s.ktimers.entity .cfs).periodTicks - elapsed))
      else (true, s.ktimers.nowTicks + (s.ktimers.entity .cfs).periodTicks) := by
  have hcalm := h.calm .cfs (h.linked_cfs.mpr hk.1)
  rw [h.woken.nowTicks] at hcalm
  have hperiod := h.start.satAdd64_eq (h.start.period_le .cfs)
  have hrest := h.start.satAdd64_eq ((Nat.sub_le _ elapsed).trans (h.start.period_le .cfs))
  rcases CfsTurn.settled h.woken.cfs hcalm with ⟨hlt, -⟩ | ⟨-, heq⟩
  · exact absurd hk.2 (not_le.mpr hlt)
  · rw [heq, hperiod, hrest]
    have hiff : s.ktimers.nowTicks <
        s.ktimers.nowTicks + ((s.ktimers.entity .cfs).periodTicks - elapsed) ↔
        elapsed < (s.ktimers.entity .cfs).periodTicks := by omega
    simp only [hiff]
    rfl

/-- The CFS timer is left alone unless it is expired. -/
lemma same_cfs (h : Rests elapsed s s') (hl : s.ktimers.Linked .cfs) (hk : ¬ s.Expired .cfs) :
    KTimers.Same s.ktimers s'.ktimers .cfs := by
  have hcalm := h.calm .cfs (h.linked_cfs.mpr hl)
  rw [h.woken.nowTicks] at hcalm
  rcases CfsTurn.settled h.woken.cfs hcalm with ⟨-, heq⟩ | ⟨hle, -⟩
  · exact .of_fields h.start.tidy.ktimers h.final.tidy.ktimers hl (h.linked_cfs.mpr hl)
      (congrArg Prod.snd heq) (congrArg Prod.fst heq) (h.woken.frame.timing _) rfl
  · exact absurd ⟨hl, hle⟩ hk

/-- **The closed form** of a queue that has come to rest. -/
theorem dispatched (h : Rests elapsed s s') : Dispatched elapsed s s' where
  calm := h.calm
  nowTicks := h.woken.nowTicks
  linked k := by
    cases k with
    | cfs => simpa using h.linked_cfs
    | wait => simpa using iff_of_true h.final.wait h.start.wait
    | rt t =>
        have hkind : s'.kind t = s.kind t := h.woken.kind_eq t
        have hiff : s'.ktimers.Linked (.rt t) ↔ s'.kind t = .rt ∧ (s'.state t).isBlocked = false :=
          (h.final.ok t).timer
        have hiff₀ : s.ktimers.Linked (.rt t) ↔ s.kind t = .rt ∧ (s.state t).isBlocked = false :=
          (h.start.ok t).timer
        simp only [Timer.rt.injEq, exists_eq_left']
        rw [hiff, hiff₀, hkind]
        by_cases hs : s.state t = .waiting
        · by_cases hdue : s.Due t
          · have hplace := (h.woken.woken t hs).place.resolve_left fun hp =>
              h.ne_waiting hdue ((congrArg Place.state hp).trans hs)
            have hready : s'.state t = .ready := congrArg Place.state hplace
            simp [hs, hready, hdue, ThreadState.isBlocked]
          · have hs' : s'.state t = .waiting :=
              h.final.mem_tree.mp (h.mem_tree_iff.mpr ⟨h.start.mem_tree.mpr hs, hdue⟩)
            simp [hs, hs', hdue]
        · have hs' : s'.state t = s.state t := congrArg Place.state (h.woken.other t hs)
          have hdue : ¬ s.Due t := fun hd => hs (h.start.mem_tree.mp hd.1)
          simp [hs', hdue]
  unexpired k hl hk := by
    cases k with
    | cfs => exact h.same_cfs hl hk
    | wait => exact h.same_wait hk
    | rt t =>
        refine (h.same_or_renewed hl).resolve_right fun hnew => hk ⟨hl, ?_⟩
        rw [← h.woken.nowTicks]
        exact hnew.expired
  rt t ht := by
    have hnew := h.renewed_rt ht
    exact ⟨hnew.active, hnew.runtime, h.renewed_expireAt hnew⟩
  cfs_parked ht hact hlt := by
    have hview := h.cfsView_eq ht
    rw [if_pos ⟨h.start.tidy.ktimers.flag_active _ hact, hlt⟩] at hview
    exact ⟨(h.final.tidy.ktimers.mem_inactive_iff (h.linked_cfs.mpr ht.1)).mpr
      (congrArg Prod.fst hview), congrArg Prod.snd hview⟩
  cfs_opened ht hopen := by
    have hview := h.cfsView_eq ht
    have hnot : ¬ ((s.ktimers.entity .cfs).active = true ∧
        elapsed < (s.ktimers.entity .cfs).periodTicks) := by
      rintro ⟨hflag, hlt⟩
      rcases hopen with hin | hle
      · rw [h.start.tidy.ktimers.flag_inactive _ hin] at hflag
        exact absurd hflag (by decide)
      · omega
    rw [if_neg hnot] at hview
    exact ⟨(h.final.tidy.ktimers.mem_active_iff (h.linked_cfs.mpr ht.1)).mpr
      (congrArg Prod.fst hview), congrArg Prod.snd hview⟩
  woken t hkind ht hlt := by
    obtain ⟨hact, htimed⟩ := h.woken_rt hkind ht
    have hexp := h.start.timedExpireAt_eq t elapsed
    obtain ⟨htime, hrun⟩ := htimed.of_lt (by omega)
    exact ⟨hact, hrun, htime.trans hexp⟩
  exhausted t hkind ht hle := by
    obtain ⟨hact, htimed⟩ := h.woken_rt hkind ht
    have hexp := h.start.timedExpireAt_eq t elapsed
    have hlate := h.calm _ (Or.inl hact)
    rw [h.woken.nowTicks] at hlate
    rcases htimed with ⟨htime, -⟩ | ⟨-, htime, hrun⟩
    · -- a timer with no budget left is expired at once
      omega
    · exact ⟨hact, hrun, htime.trans (h.start.satAdd64_eq (h.start.deadline_le _))⟩
  sleepers t := h.mem_tree_iff
  asleep t ht :=
    (h.woken.woken t (h.start.mem_tree.mp (h.mem_tree_iff.mp ht).1)).kept (h.final.mem_tree.mp ht)

/-- The timers that the loop has re-armed expire later than now. -/
lemma advances (h : Rests elapsed s s') : s.Advances elapsed where
  cfs ht := by
    have hlate := h.calm .cfs (h.linked_cfs.mpr ht.1)
    have hview := congrArg Prod.snd (h.cfsView_eq ht)
    rw [h.woken.nowTicks] at hlate
    replace hview : (s'.ktimers.entity .cfs).expireAt = _ := hview
    rw [hview] at hlate
    split at hlate
    · rename_i hparked
      exact hparked.2.pos
    · exact Nat.lt_add_right_iff_pos.mp hlate
  rt t ht := by
    have hnew := h.renewed_rt ht
    have hlate := h.calm _ (Or.inl hnew.active)
    rw [h.woken.nowTicks, h.renewed_expireAt hnew] at hlate
    omega
  woken t hkind ht hle := by
    obtain ⟨hact, -, htime⟩ := h.dispatched.exhausted t hkind ht hle
    have hlate := h.calm _ (Or.inl hact)
    rw [h.woken.nowTicks, htime] at hlate
    omega

end Rests

/-! ### Termination -/

/-- A part of a tick leaves no timer expired that was not expired or has been woken, and so the
timers still advance. -/
lemma Advances.woken_step (ha : s.Advances elapsed) (h : s.Dispatchable) (h' : s'.Dispatchable)
    (hw : Woken elapsed s s') (hcfs : s'.ktimers.Linked .cfs ↔ s.ktimers.Linked .cfs) :
    s'.Advances elapsed where
  cfs hexp := by
    rw [KTimerEntity.periodTicks, hw.frame.timing]
    refine ha.cfs ⟨hcfs.mp hexp.1, ?_⟩
    have hle := hexp.2
    rw [hw.nowTicks] at hle
    rcases Relation.ReflTransGen.cases_head hw.cfs with heq | ⟨v, hturn, -⟩
    · have htime : (s.ktimers.entity .cfs).expireAt = (s'.ktimers.entity .cfs).expireAt :=
        congrArg Prod.snd heq
      rwa [htime]
    · generalize hv : s.ktimers.cfsView = v₀ at hturn
      have htime : (s.ktimers.entity .cfs).expireAt = v₀.2 := congrArg Prod.snd hv
      rw [htime]
      cases hturn with
      | parks hx => exact hx
      | opens hx => exact hx
  rt t hexp := by
    rw [KTimerEntity.relativeDeadlineTicks, hw.frame.timing]
    have hle := hexp.2
    rw [hw.nowTicks] at hle
    by_cases hs : s.state t = .waiting
    · -- the thread has been woken with no budget left
      have hne : s'.state t ≠ .waiting := fun hs' => h'.not_linked hs' hexp.1
      have hkind : s.kind t = .rt := (hw.kind_eq t).symm.trans ((h'.ok t).timer.mp hexp.1).1
      have hdue : s.Due t := ⟨h.mem_tree.mpr hs, (hw.woken t hs).due hne⟩
      have htime := h.timedExpireAt_eq t elapsed
      have hspent : s.timedExpireAt t elapsed ≤ s.ktimers.nowTicks := by
        rcases ((hw.woken t hs).rt hkind hne).2 with ⟨heq, -⟩ | ⟨hspent, -⟩
        · rwa [← heq]
        · exact hspent
      exact ha.woken t hkind hdue (by omega)
    · have hnot : ¬ s.tickTimers (.rt t) := by simp [tickTimers, hs]
      refine ha.rt t ⟨(hw.frame.linked _ hnot).mp hexp.1, ?_⟩
      rcases hw.frame.rearmed _ hnot with hsame | hnew
      · rwa [← hsame.entity]
      · rw [← hw.nowTicks]
        exact hnew.expired
  woken t hkind hdue hle := by
    have hs' : s'.state t = .waiting := h'.mem_tree.mp hdue.1
    have hs : s.state t = .waiting := hw.waiting_of_waiting hs'
    have hsame := (hw.woken t hs).kept hs'
    have hrun : s'.ktimers.runtime t = s.ktimers.runtime t := hsame.runtime
    have hwake := hdue.2
    rw [hw.entity, hw.nowTicks] at hwake
    rw [wokenRuntime, hrun, hsame.entity] at hle
    rw [hsame.entity]
    exact ha.woken t ((hw.kind_eq t).symm.trans hkind) ⟨h.mem_tree.mpr hs, hwake⟩ hle

/-- The linked timers, other than the wait timer, that are expired. -/
def expiredTimers (s : Sched) : Finset Timer :=
  ((s.ktimers.active ++ s.ktimers.inactive).toFinset).filter fun k =>
    s.ktimers.expired k = true ∧ k ≠ .wait

@[simp] lemma mem_expiredTimers {k : Timer} :
    k ∈ s.expiredTimers ↔ s.Expired k ∧ k ≠ .wait := by
  simp [expiredTimers, Expired, KTimers.Linked, KTimers.expired, KTimerEntity.isExpiredAt,
    and_assoc]

/-- What is left to do: first whether sleepers are to be woken, then the expired timers, where an
active CFS timer counts twice because it may be parked before it is activated. -/
def rank (s : Sched) : ℕ ×ₗ ℕ :=
  toLex (if s.Expired .wait then 1 else 0,
    s.expiredTimers.card + if s.Expired .cfs ∧ (s.ktimers.entity .cfs).active then 1 else 0)

/-- A turn with a timer that is not the wait timer leaves the others alone. -/
lemma Turn.expired_iff {k j : Timer} (h : Turn k elapsed s s') (hk : k ≠ .wait) (hj : j ≠ k) :
    s'.Expired j ↔ s.Expired j := by
  have hsame := h.other hk j hj
  rw [Expired, hsame.linked, hsame.entity, h.woken.nowTicks, Expired]

lemma Turn.expiredTimers_subset {k : Timer} (h : Turn k elapsed s s') (hk : s.Expired k)
    (hw : k ≠ .wait) : s'.expiredTimers ⊆ s.expiredTimers := by
  intro j hj
  rw [mem_expiredTimers] at hj ⊢
  by_cases hjk : j = k
  · exact ⟨hjk ▸ hk, hj.2⟩
  · exact ⟨(h.expired_iff hw hjk).mp hj.1, hj.2⟩

/-- A turn after which its timer is not expired leaves fewer expired timers. -/
lemma Turn.card_lt {k : Timer} (h : Turn k elapsed s s') (hk : s.Expired k) (hw : k ≠ .wait)
    (hlate : ¬ s'.Expired k) : s'.expiredTimers.card < s.expiredTimers.card := by
  refine Finset.card_lt_card ⟨h.expiredTimers_subset hk hw, fun hsub => hlate ?_⟩
  exact (mem_expiredTimers.mp (hsub (mem_expiredTimers.mpr ⟨hk, hw⟩))).1

/-- The wait timer is not expired while no wait is. -/
lemma Dispatchable.not_expired_wait (h : s.Dispatchable) (hnone : s.NoneDue) :
    ¬ s.Expired .wait := by
  rintro ⟨-, hle⟩
  rw [h.armed, KTimers.waitExpireAt] at hle
  cases htree : s.waitq.tree with
  | nil =>
      have hnow := h.now_le
      simp only [firstWakeAt, htree, List.head?_nil, Option.map_none, Option.getD_none,
        ktimerExpireNever, u64Max] at hle hnow
      omega
  | cons u l =>
      have hlate := hnone u (by simp [htree])
      simp only [firstWakeAt, htree, List.head?_cons, Option.map_some, Option.getD_some] at hle
      omega

/-- **Each turn lowers the rank.** -/
theorem Turn.rank_lt {k : Timer} (h : Turn k elapsed s s') (hs : s.Dispatchable)
    (hs' : s'.Dispatchable) (ha : s.Advances elapsed) (hk : s.Expired k) :
    s'.rank < s.rank := by
  rw [rank, rank, Prod.Lex.toLex_lt_toLex]
  cases k with
  | wait =>
      -- all due threads have been woken
      refine Or.inl ?_
      rw [if_neg (hs'.not_expired_wait (h.wait rfl)), if_pos hk]
      exact Nat.zero_lt_one
  | cfs =>
      have hwait := h.expired_iff (by simp) (j := .wait) (by simp)
      refine Or.inr ⟨by simp only [hwait], ?_⟩
      have hturn := h.cfs rfl
      have hperiod := hs.satAdd64_eq (hs.period_le .cfs)
      have hpos := ha.cfs hk
      generalize hv : s.ktimers.cfsView = v at hturn
      generalize hv' : s'.ktimers.cfsView = v' at hturn
      cases hturn with
      | parks hx =>
          -- the timer may still be expired, but it is not active
          have hflag : (s.ktimers.entity .cfs).active = true := congrArg Prod.fst hv
          have hflag' : (s'.ktimers.entity .cfs).active = false := congrArg Prod.fst hv'
          have hcard := Finset.card_le_card (h.expiredTimers_subset hk (by simp))
          simp only [hk, hflag, hflag', Bool.false_eq_true, and_false, and_true, if_true, if_false]
          omega
      | opens hx =>
          have hflag : (s.ktimers.entity .cfs).active = false := congrArg Prod.fst hv
          have hlate : ¬ s'.Expired .cfs := by
            rintro ⟨-, hle⟩
            have htime : (s'.ktimers.entity .cfs).expireAt = _ := congrArg Prod.snd hv'
            rw [htime, hperiod, h.woken.nowTicks] at hle
            omega
          have hcard := h.card_lt hk (by simp) hlate
          simp only [hlate, hflag, Bool.false_eq_true, and_false, false_and, if_false]
          omega
  | rt t =>
      have hwait := h.expired_iff (by simp) (j := .wait) (by simp)
      have hsame := h.other (by simp) .cfs (by simp)
      have hlate : ¬ s'.Expired (.rt t) := by
        rintro ⟨-, hle⟩
        rw [h.rt t rfl, hs.satAdd64_eq (hs.deadline_le _), h.woken.nowTicks] at hle
        have hpos := ha.rt t hk
        omega
      refine Or.inr ⟨by simp only [hwait], ?_⟩
      simp only [h.expired_iff (j := .cfs) (by simp) (by simp), hsame.entity]
      exact Nat.add_lt_add_right (h.card_lt hk (by simp) hlate) _

/-- **The loop ends** if the timers advance: by a return or by a panic. -/
theorem exists_ne_hang (elapsed : ℕ) (s : Sched) (h : s.Dispatchable) (ha : s.Advances elapsed) :
    ∃ n, dispatchExpired elapsed n s ≠ .error .hang := by
  induction s using (InvImage.wf rank wellFounded_lt).induction with
  | _ s ih =>
  cases hfirst : s.ktimers.first with
  | none => exact ⟨1, by simp [dispatchExpired, hfirst]⟩
  | some k =>
      by_cases hexp : s.ktimers.expired k = true
      · have hk : s.Expired k := ⟨linked_of_first hfirst,
          by simpa [KTimers.expired, KTimerEntity.isExpiredAt] using hexp⟩
        have hturn := dispatchTurn_spec h.tidy h.ok hk.1 hexp elapsed
        have hrun : ∀ n, dispatchExpired elapsed (n + 1) s =
            (s.ktimers.remove k >>= fun q => dispatchTimer { s with ktimers := q } k elapsed) >>=
              dispatchExpired elapsed n := by
          intro n
          rw [dispatchExpired, hfirst]
          simp only [hexp, if_true, bind_assoc]
        cases hres : s.ktimers.remove k >>= fun q =>
            dispatchTimer { s with ktimers := q } k elapsed with
        | error f =>
            refine ⟨1, ?_⟩
            rw [hrun, hres, error_bind]
            rcases hturn.error hres with rfl | rfl
            · simp
            · simp
        | ok s₁ =>
            have h₁ : Turn k elapsed s s₁ := hturn.value hres
            have hd₁ := h.woken h₁.woken h₁.linked_wait (h₁.armed h.armed)
            obtain ⟨n, hn⟩ := ih s₁ (h₁.rank_lt h hd₁ ha hk) hd₁
              (ha.woken_step h hd₁ h₁.woken h₁.linked_cfs)
            refine ⟨n + 1, ?_⟩
            rwa [hrun, hres, ok_bind]
      · exact ⟨1, by simp [dispatchExpired, hfirst, hexp]⟩

/-- **The loop of `dispatch_expired`** on a well-formed queue, when no deadline miss is raised.  It
returns exactly if the timers advance; the one other end is a panic of the CFS accounting of a
woken thread.  It returns the first active timer of a queue in which no timer is expired, in the
closed form. -/
theorem dispatch_closed (s : Sched) (h : s.Dispatchable) (elapsed : ℕ)
    (hmiss : ∀ n, dispatchExpired elapsed n s ≠ .error .deadlineMiss) :
    ((∀ n, dispatchExpired elapsed n s ≠ .error .arithmetic) →
      ((∃ n s' first, dispatchExpiredFirst elapsed n s = .ok (s', first)) ↔
        s.Advances elapsed)) ∧
    (s.Advances elapsed → ∃ n, (∃ s', dispatchExpired elapsed n s = .ok s') ∨
      dispatchExpired elapsed n s = .error .arithmetic) ∧
    ∀ n s' first, dispatchExpiredFirst elapsed n s = .ok (s', first) →
      s.Advances elapsed ∧ first = s'.ktimers.firstActive ∧ Dispatched elapsed s s' := by
  have hends : s.Advances elapsed → ∃ n, (∃ s', dispatchExpired elapsed n s = .ok s') ∨
      dispatchExpired elapsed n s = .error .arithmetic := by
    intro ha
    obtain ⟨n, hn⟩ := exists_ne_hang elapsed s h ha
    refine ⟨n, ?_⟩
    cases hres : dispatchExpired elapsed n s with
    | ok s' => exact Or.inl ⟨s', rfl⟩
    | error f =>
        rcases (dispatchExpired_spec elapsed n s h.tidy h.ok).error hres with rfl | rfl | rfl
        · exact absurd hres (hmiss n)
        · exact Or.inr rfl
        · exact absurd hres hn
  have hreturn : ∀ n s' first, dispatchExpiredFirst elapsed n s = .ok (s', first) →
      s.Advances elapsed ∧ first = s'.ktimers.firstActive ∧ Dispatched elapsed s s' := by
    intro n s' first hrun
    rw [dispatchExpiredFirst_eq, bind_eq_ok] at hrun
    obtain ⟨s₁, hrun, heq⟩ := hrun
    obtain ⟨rfl, rfl⟩ := Prod.mk.inj (Except.ok.inj heq)
    obtain ⟨hw, hcfs, hwait, harmed, hcalm⟩ :=
      (dispatchExpired_spec elapsed n s h.tidy h.ok).value hrun
    have hrests : Rests elapsed s s₁ := ⟨h, h.woken hw hwait (harmed h.armed), hw, hcfs, hcalm⟩
    exact ⟨hrests.advances, rfl, hrests.dispatched⟩
  refine ⟨fun hpanic => ⟨?_, fun ha => ?_⟩, hends, hreturn⟩
  · rintro ⟨n, s', first, hrun⟩
    exact (hreturn n s' first hrun).1
  · obtain ⟨n, ⟨s', hrun⟩ | hrun⟩ := hends ha
    · refine ⟨n, s', s'.ktimers.firstActive, ?_⟩
      rw [dispatchExpiredFirst_eq, hrun, ok_bind]
    · exact absurd hrun (hpanic n)

/-- The queue that a tick dispatches is well-formed. -/
lemma Inv.dispatchable (h : s.Inv) (harmed : s.WaitArmed)
    (hnow : satAdd64 s.ktimers.nowTicks elapsed ≤ u64Max - 2 ^ 33)
    (hperiod : ∀ k, (s.ktimers.entity k).periodTicks ≤ u32Max)
    (hdeadline : ∀ k, (s.ktimers.entity k).relativeDeadlineTicks ≤ u32Max) :
    (s.advanced elapsed).Dispatchable :=
  ⟨advanced_tidy h.tidy elapsed, h.ok, h.wait, harmed, hnow, hperiod, hdeadline⟩

/-- At 500 the CFS timer expires, the timer of the ready RT thread 1 has expired at 400, and the RT
thread 2, which has run for 40 ticks of its job, was to sleep until 450. -/
def mixedExpiry : Sched :=
  let timer : Timer → KTimerEntity
    | .cfs => ⟨500, true, ⟨1000, 500, 500⟩⟩
    | .wait => ⟨450, false, ⟨0, 0, 0⟩⟩
    | .rt 1 => ⟨400, true, ⟨900, 300, 100⟩⟩
    | .rt _ => ⟨ktimerExpireNever, false, ⟨900, 800, 100⟩⟩
  let s : Sched := .new
    { layout := .packed
      entity := timer
      active := [.rt 1, .cfs]
      inactive := [.wait]
      nowTicks := 500
      next := some (.rt 1)
      runtime := fun t => if t = 2 then 40 else 0
      missCnt := fun _ => 0 }
  { s with
    waitq := ⟨[2], [], fun _ => ⟨450, none⟩⟩
    spawned := [2, 1]
    kind := fun t => if t = 1 ∨ t = 2 then .rt else .idle
    state := fun t => if t = 2 then .waiting else .ready }

lemma mixedExpiry_dispatchable : mixedExpiry.Dispatchable where
  tidy := by
    refine ⟨⟨?_, List.pairwise_singleton _ _, ?_, ?_, ?_, by decide⟩, List.Pairwise.nil,
      List.pairwise_singleton _ _, List.nodup_nil, fun _ => List.Pairwise.nil⟩
    · decide
    all_goals simp [mixedExpiry, new]
  ok u := by
    have hplace : mixedExpiry.place u =
        .free (mixedExpiry.kind u) (mixedExpiry.state u) none := by
      rcases eq_or_ne u 1 with rfl | h₁
      · ext <;> simp [place, mixedExpiry, new, Place.settled, KTimers.Linked, ThreadState.isBlocked]
      · by_cases h₂ : u = 2
        · ext <;> simp [place, mixedExpiry, new, Place.settled, KTimers.Linked, h₂,
            ThreadState.isBlocked]
        · ext <;> simp [place, mixedExpiry, new, Place.settled, KTimers.Linked, h₁, h₂]
    rw [hplace]
    refine Place.ok_free (fun hidle => ?_) fun _ => rfl
    by_cases h₂ : u = 2
    · simp [mixedExpiry, h₂] at hidle
    · simp [mixedExpiry, h₂, ThreadState.isBlocked]
  wait := Or.inr (by decide)
  armed := rfl
  now_le := by decide
  period_le k := by
    rcases k with _ | _ | _ | _ | t
    case rt.succ.succ => exact (by decide : 900 ≤ u32Max)
    all_goals decide
  deadline_le k := by
    rcases k with _ | _ | _ | _ | t
    case rt.succ.succ => exact (by decide : 800 ≤ u32Max)
    all_goals decide

/-- The sleeper is woken with the ticks of the tick charged to it, the timer of the other RT thread
is re-armed, and the CFS timer is parked for the rest of its period. -/
theorem dispatch_closed_mixed : ∃ s',
    dispatchExpiredFirst 100 4 mixedExpiry = .ok (s', some (.rt 1)) ∧
    Dispatched 100 mixedExpiry s' ∧ (s'.ktimers.entity (.rt 1)).expireAt = 800 ∧
    (s'.ktimers.entity (.rt 2)).expireAt = 1160 ∧ s'.ktimers.runtime 2 = 140 ∧
    (s'.ktimers.entity .cfs).expireAt = 1400 ∧ s'.waitq.tree = [] := by
  have hmiss : ∀ n, dispatchExpired 100 n mixedExpiry ≠ .error .deadlineMiss := by
    intro n hres
    rcases n with _ | _ | _ | _ | n
    · cases hres
    · cases hres
    · cases hres
    · cases hres
    · cases hres
  obtain ⟨s', hrun⟩ : ∃ s',
      dispatchExpiredFirst 100 4 mixedExpiry = .ok (s', some (.rt 1)) := ⟨_, rfl⟩
  have hclosed := ((dispatch_closed _ mixedExpiry_dispatchable 100 hmiss).2.2 4 s' _ hrun).2.2
  obtain ⟨-, hrt⟩ := (hclosed.rt 1 ⟨Or.inl (by decide), by decide⟩).2
  obtain ⟨-, hruntime, hwoken⟩ := hclosed.woken 2 (by decide) ⟨by decide, by decide⟩ (by decide)
  obtain ⟨-, hcfs⟩ := hclosed.cfs_parked ⟨Or.inl (by decide), by decide⟩ (by decide) (by decide)
  refine ⟨s', hrun, hclosed, hrt, hwoken, hruntime, hcfs, ?_⟩
  refine List.eq_nil_iff_forall_not_mem.mpr fun t ht => ?_
  obtain ⟨hmem, hnot⟩ := (hclosed.sleepers t).mp ht
  obtain rfl := List.mem_singleton.mp hmem
  exact hnot ⟨hmem, by decide⟩

end Sched

end Rtsched

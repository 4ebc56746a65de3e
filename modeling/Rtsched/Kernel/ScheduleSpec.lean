import Rtsched.Kernel.Invariant

/-!
What a context switch does.

* `Sched.SwitchTo s r σ n`: the run queue `r` and the thread states `σ` fit a switch to `n`.
* `Sched.pickNext_spec`: the branches of `schedule`.
* `Sched.schedule_spec`: **a context switch keeps the invariant**.  Only when the current thread is
  a CFS thread that is ready, `Sched.CurReady`, can it fail on a link of the run queue.
-/

namespace Rtsched

open Ordered Outcome

namespace Sched

variable {s : Sched} {c n : Tid} {r : RunQueue} {σ : Tid → ThreadState}

/-- The current thread is a CFS thread that is ready, not running. -/
def CurReady (s : Sched) : Prop :=
  ∃ c, s.current = some c ∧ s.kind c = .cfs ∧ s.state c = .ready

/-- The faults of a switch: the accounting overflows, or the current thread is ready. -/
def SwitchFault (s : Sched) (f : Fault) : Prop :=
  f = .arithmetic ∨ (s.CurReady ∧ (f = .alreadyLinked ∨ f = .poppedCurrent))

/-- The run queue and the thread states after a switch to `n`. -/
structure SwitchTo (s : Sched) (r : RunQueue) (σ : Tid → ThreadState) (n : Tid) : Prop where
  ordered : r.Ordered
  queued : ∀ u, u ∈ r.tree ↔ s.kind u = .cfs ∧ σ u = .ready
  blocked : ∀ u, σ u = s.state u ∨ ((σ u).isBlocked = false ∧ (s.state u).isBlocked = false)
  running : ∀ u, σ u = .running → u = n
  awake : (σ n).isBlocked = false
  spawned : n ∈ s.spawned
  fresh : ∀ u, u ∉ s.spawned → σ u = s.state u

/-- The state after a switch to `n`. -/
def switched (s : Sched) (r : RunQueue) (σ : Tid → ThreadState) (n : Tid) : Sched :=
  { s with runq := r, state := σ, current := some n, currentIsCfs := decide (s.kind n = .cfs) }

namespace SwitchTo

lemma eq_iff (h : SwitchTo s r σ n) {x : ThreadState} (hx : x.isBlocked = true) (u : Tid) :
    σ u = x ↔ s.state u = x := by
  rcases h.blocked u with heq | ⟨h₁, h₂⟩
  · rw [heq]
  · refine iff_of_false ?_ ?_
    · rintro rfl
      exact absurd (h₁.symm.trans hx) (by decide)
    · intro heq
      rw [heq] at h₂
      exact absurd (h₂.symm.trans hx) (by decide)

lemma isBlocked_eq (h : SwitchTo s r σ n) (u : Tid) :
    (σ u).isBlocked = (s.state u).isBlocked := by
  rcases h.blocked u with heq | ⟨h₁, h₂⟩
  · rw [heq]
  · rw [h₁, h₂]

/-- A switch keeps the invariant. -/
lemma inv (h : s.Base) (hc : s.current = some c) (hs : SwitchTo s r σ n) :
    Inv { switched s r σ n with pendsv := false } where
  tidy := ⟨h.tidy.ktimers, hs.ordered, h.tidy.waitq, h.tidy.suspended, h.tidy.waiters⟩
  ok u :=
    { queued := hs.queued u
      timer := (h.ok u).timer.trans (by simp [place, switched, hs.isBlocked_eq u])
      timed := (h.ok u).timed.trans (hs.eq_iff rfl u).symm
      parked := (h.ok u).parked.trans (hs.eq_iff rfl u).symm
      idle := fun hk => (hs.isBlocked_eq u).trans ((h.ok u).idle hk)
      waits := fun o ho => ⟨(hs.eq_iff rfl u).mpr ((h.ok u).waits o ho).1, ((h.ok u).waits o ho).2⟩
      unique := (h.ok u).unique
      registered := fun hsusp => (h.ok u).registered ((hs.eq_iff rfl u).mp hsusp) }
  cfs := h.cfs
  wait := h.wait
  next := h.next
  running u hu := congrArg some (hs.running u hu).symm
  isCfs u hu := by
    obtain rfl : n = u := by simpa [switched] using hu
    rfl
  idle := h.idle
  hasIdle _ := h.hasIdle (by rw [hc]; rfl)
  started := h.started.trans (by rw [hc]; rfl)
  spawned u hu := by
    obtain rfl : n = u := by simpa [switched] using hu
    exact hs.spawned
  fresh u hu := ⟨(h.fresh u hu).1, (hs.fresh u hu).trans (h.fresh u hu).2⟩
  awake _ u hu := by
    obtain rfl : n = u := by simpa [switched] using hu
    exact hs.awake

end SwitchTo

/-! ### Leaving the current thread -/

/-- The thread states once the current thread has been made ready, unless it is blocked. -/
def leave (s : Sched) (c : Tid) : Tid → ThreadState :=
  if (s.state c).isBlocked then s.state else Function.update s.state c .ready

/-- The run queue of a switch from `c` to `n`: `n` has left it, and `c` has joined it if it is a
CFS thread that is not blocked. -/
lemma switchTo_leave (h : s.Base) (hc : s.current = some c) (hr : r.Ordered)
    (hmem : ∀ u, u ∈ r.tree ↔ (u ∈ s.runq.tree ∧ u ≠ n) ∨
      (u = c ∧ c ≠ n ∧ s.kind c = .cfs ∧ (s.state c).isBlocked = false))
    (hn : (s.state n).isBlocked = false) (hns : n ∈ s.spawned) :
    SwitchTo s r (Function.update (s.leave c) n .running) n := by
  have hleave : ∀ u, u ≠ c → s.leave c u = s.state u := by
    intro u hu
    unfold leave
    split
    · rfl
    · exact Function.update_of_ne hu ..
  have hother : ∀ u, u ≠ n → u ≠ c → Function.update (s.leave c) n .running u = s.state u :=
    fun u hu huc => (Function.update_of_ne hu ..).trans (hleave u huc)
  have hqueued : ∀ u, u ∈ s.runq.tree ↔ s.kind u = .cfs ∧ s.state u = .ready :=
    fun u => (h.ok u).queued
  refine ⟨hr, fun u => ?_, fun u => ?_, fun u hu => ?_, ?_, hns, fun u hu => ?_⟩
  · rw [hmem]
    by_cases hun : u = n
    · subst hun
      simp only [Function.update_self, ne_eq, not_true_eq_false, and_false, false_or]
      refine iff_of_false ?_ (by simp)
      rintro ⟨rfl, hne, -⟩
      exact hne rfl
    · by_cases huc : u = c
      · subst huc
        rw [Function.update_of_ne hun, leave]
        by_cases hb : (s.state u).isBlocked = true
        · have hready : s.state u ≠ .ready := by
            intro heq
            rw [heq] at hb
            exact absurd hb (by decide)
          simp [hb, hqueued, hready]
        · simp [hb, hqueued, hun]
          tauto
      · rw [hother u hun huc, hqueued]
        simp [hun, huc]
  · by_cases hun : u = n
    · subst hun
      exact Or.inr ⟨by rw [Function.update_self]; rfl, hn⟩
    · by_cases huc : u = c
      · subst huc
        rw [Function.update_of_ne hun, leave]
        by_cases hb : (s.state u).isBlocked = true
        · simp [hb]
        · rw [if_neg hb, Function.update_self]
          exact Or.inr ⟨rfl, by simpa using hb⟩
      · exact Or.inl (hother u hun huc)
  · by_contra hun
    by_cases huc : u = c
    · subst huc
      rw [Function.update_of_ne hun, leave] at hu
      by_cases hb : (s.state u).isBlocked = true
      · rw [if_pos hb] at hu
        rw [hu] at hb
        exact absurd hb (by decide)
      · rw [if_neg hb, Function.update_self] at hu
        exact absurd hu (by decide)
    · rw [hother u hun huc] at hu
      have hcu : some c = some u := hc.symm.trans (h.running u hu)
      exact huc (by simpa using hcu.symm)
  · rw [Function.update_self]
    rfl
  · refine hother u ?_ ?_
    · rintro rfl
      exact hu hns
    · rintro rfl
      exact hu (h.spawned u hc)

lemma readyUnlessBlocked_eq (s : Sched) (c : Tid) :
    s.readyUnlessBlocked c = .ok { s with state := s.leave c } := by
  unfold readyUnlessBlocked leave
  split
  · rfl
  · rename_i hb
    rw [setState, if_pos (ThreadState.canTransitionTo_of_not_blocked (by simpa using hb))]

/-- Running the thread `n` makes up for leaving it first. -/
lemma update_leave_self (hn : (s.state n).isBlocked = false) :
    Function.update s.state n .running = Function.update (s.leave n) n .running := by
  rw [leave, if_neg (by simp [hn]), Function.update_idem]

lemma leave_idem (s : Sched) (c : Tid) (r : RunQueue) :
    leave { s with state := s.leave c, runq := r } c = s.leave c := by
  have hready : ThreadState.ready.isBlocked = false := rfl
  unfold leave
  by_cases hb : (s.state c).isBlocked = true
  · simp [hb]
  · simp [hb, hready]

/-- The outgoing thread of a switch: the states become those of `leave` unless the thread stays. -/
lemma leaveCurrent_eq (hc : s.current = some c) (hn : (s.state n).isBlocked = false) :
    ∃ σ, s.leaveCurrent n = .ok { s with state := σ } ∧ (σ n).isBlocked = false ∧
      Function.update σ n .running = Function.update (s.leave c) n .running := by
  have hrun : s.leaveCurrent n = if c = n then .ok s else s.readyUnlessBlocked c := by
    rw [leaveCurrent, hc]
  rw [hrun]
  by_cases hcn : c = n
  · subst hcn
    rw [if_pos rfl]
    exact ⟨s.state, rfl, hn, update_leave_self hn⟩
  · rw [if_neg hcn, readyUnlessBlocked_eq]
    refine ⟨s.leave c, rfl, ?_, rfl⟩
    rw [leave]
    split
    · exact hn
    · rwa [Function.update_of_ne (Ne.symm hcn)]

lemma setState_running (hn : (s.state n).isBlocked = false) :
    s.setState n .running = .ok { s with state := Function.update s.state n .running } := by
  rw [setState, if_pos (ThreadState.canTransitionTo_of_not_blocked hn)]

/-- `switch_to_cfs_thread`. -/
lemma switchToCfsThread_eq (hc : s.current = some c) (hn : (s.state n).isBlocked = false)
    (hkind : s.kind n = .cfs) :
    s.switchToCfsThread n =
      .ok (s.switched s.runq (Function.update (s.leave c) n .running) n) := by
  obtain ⟨σ, hleave, hσ, heq⟩ := leaveCurrent_eq hc hn
  rw [switchToCfsThread, hleave, ok_bind, setState_running (s := { s with state := σ }) hσ, ok_bind,
    switched, ← heq, hkind]
  rfl

/-- `switch_to_idle_thread`. -/
lemma switchToIdleThread_eq (hc : s.current = some c) {i : Tid} (hi : s.idle = some i)
    (hn : (s.state i).isBlocked = false) :
    s.switchToIdleThread =
      .ok (s.switched s.runq (Function.update (s.leave c) i .running) i) := by
  obtain ⟨σ, hleave, hσ, heq⟩ := leaveCurrent_eq hc hn
  have hrun : s.switchToIdleThread = (do
      let s ← s.leaveCurrent i
      let s ← s.setState i .running
      .ok { s with current := some i, currentIsCfs := s.kind i = .cfs }) := by
    rw [switchToIdleThread, hi]
  rw [hrun, hleave, ok_bind, setState_running (s := { s with state := σ }) hσ, ok_bind, switched,
    ← heq]

/-! ### The branches of a switch -/

/-- Which thread is chosen: the thread of the chosen RT timer; for the CFS timer the thread with the
least virtual runtime, if a thread is queued, and the current one unless a queued one has less; and
the idle thread else. -/
structure Chosen (s : Sched) (r : RunQueue) (n : Tid) : Prop where
  rt : ∀ t, s.ktimers.next = some (.rt t) → n = t
  cfs : s.ktimers.next = some .cfs → s.runq.tree ≠ [] → s.kind n = .cfs ∧
    ∀ u ∈ r.tree, (s.runq.entity n).vruntime ≤ (s.runq.entity u).vruntime
  kept : s.ktimers.next = some .cfs → s.runq.tree ≠ [] → ∀ c, s.current = some c →
    s.kind c = .cfs → (s.state c).isBlocked = false → n = c ∨
      ∃ u ∈ s.runq.tree, (s.runq.entity u).vruntime < (s.runq.entity c).vruntime
  idle : (∀ t, s.ktimers.next ≠ some (.rt t)) → (s.ktimers.next = some .cfs → s.runq.tree = []) →
    s.idle = some n
  entity : r.entity = s.runq.entity
  prioritySum : r.prioritySum = s.runq.prioritySum

/-- The outcome of the choice of the next thread. -/
def Picks (s s' : Sched) : Prop :=
  ∃ r σ n, s' = s.switched r σ n ∧ SwitchTo s r σ n ∧ (σ n = .running ∨ s.CurReady) ∧
    s.Chosen r n

/-- A CFS thread that is current and not blocked can be queued unless it is ready already. -/
lemma requeue_ends (h : s.Base) (hc : s.current = some c) (hkind : s.kind c = .cfs) {l : List Tid}
    (hl : RunQueue.Ordered { s.runq with tree := l }) (hsub : ∀ u ∈ l, u ∈ s.runq.tree) :
    Ends s.SwitchFault (RunQueue.insert { s.runq with tree := l } c) fun r =>
      RunQueue.Inserts c { s.runq with tree := l } r := by
  by_cases hmem : c ∈ l
  · have hready : s.state c = .ready := ((h.ok c).queued.mp (hsub c hmem)).2
    rw [RunQueue.insert, link, if_pos hmem, error_bind]
    exact Or.inr ⟨⟨c, hc, hkind, hready⟩, Or.inl rfl⟩
  · exact Ends.of_exists (RunQueue.insert_spec hl hmem)

lemma setState_leave (hb : (s.state c).isBlocked = false) :
    s.setState c .ready = .ok { s with state := s.leave c } := by
  rw [setState, if_pos (ThreadState.canTransitionTo_ready _), leave, if_neg (by simp [hb])]

/-- The idle thread is not the current CFS thread. -/
lemma isIdleThread_eq_false (h : s.Base) (hkind : s.kind c = .cfs) : s.isIdleThread c = false := by
  rw [isIdleThread, decide_eq_false_iff_not]
  intro hi
  rw [(h.idle c hi).1] at hkind
  exact absurd hkind (by decide)

/-- Falling back to the idle thread. -/
lemma switchToIdle_ends (h : s.Base) (hc : s.current = some c)
    (hnext : ∀ t, s.ktimers.next ≠ some (.rt t))
    (hempty : s.ktimers.next = some .cfs → s.runq.tree = []) :
    Ends s.SwitchFault s.switchToIdleThreadWithCurrentRequeued s.Picks := by
  obtain ⟨i, hi⟩ := Option.isSome_iff_exists.mp (h.hasIdle (by rw [hc]; rfl))
  have hchosen : ∀ r : RunQueue, r.entity = s.runq.entity → r.prioritySum = s.runq.prioritySum →
      s.Chosen r i := fun r hr hr' =>
    ⟨fun t ht => absurd ht (hnext t), fun hcfs hne => absurd (hempty hcfs) hne,
      fun hcfs hne => absurd (hempty hcfs) hne, fun _ _ => hi, hr, hr'⟩
  obtain ⟨hikind, hispawned⟩ := h.idle i hi
  have hib : (s.state i).isBlocked = false := (h.ok i).idle hikind
  have hitree : i ∉ s.runq.tree := fun hmem => by
    have hcfs : s.kind i = .cfs := ((h.ok i).queued.mp hmem).1
    exact absurd (hcfs.symm.trans hikind) (by decide)
  rw [switchToIdleThreadWithCurrentRequeued]
  by_cases hq : s.kind c = .cfs ∧ (s.state c).isBlocked = false
  · obtain ⟨hkind, hb⟩ := hq
    have hci : c ≠ i := by
      rintro rfl
      exact absurd (hkind.symm.trans hikind) (by decide)
    have hrun : s.requeueCurrentCfsThreadBeforeIdle =
        if c ∈ s.runq.tree then .error .alreadyLinked
        else (do
          let s ← s.setState c .ready
          let r ← s.runq.insert c
          .ok { s with runq := r }) := by
      rw [requeueCurrentCfsThreadBeforeIdle, hi, hc]
      simp only [h.isCfs c hc, hkind, isIdleThread_eq_false h hkind, hb, decide_true, Bool.not_true,
        Bool.or_self, Bool.false_eq_true, if_false]
    rw [hrun]
    split
    · rename_i hmem
      exact Or.inr ⟨⟨c, hc, hkind, ((h.ok c).queued.mp hmem).2⟩, Or.inl rfl⟩
    · rw [setState_leave hb, ok_bind]
      refine Ends.bind (P := fun s₁ => ∃ r, s₁ = { s with state := s.leave c, runq := r } ∧
        RunQueue.Inserts c s.runq r) ?_ ?_
      · exact (requeue_ends (l := s.runq.tree) h hc hkind h.tidy.runq fun _ hu => hu).bind
          fun r hr => ⟨r, rfl, hr⟩
      · rintro _ ⟨r, rfl, hr⟩
        have hib' : (s.leave c i).isBlocked = false := by
          rwa [leave, if_neg (by simp [hb]), Function.update_of_ne (Ne.symm hci)]
        rw [switchToIdleThread_eq (s := { s with state := s.leave c, runq := r }) hc hi hib',
          leave_idem]
        refine ⟨r, _, i, rfl, switchTo_leave h hc hr.ordered (fun u => ?_) hib hispawned,
          Or.inl (Function.update_self ..), hchosen r hr.entity hr.prioritySum⟩
        rw [hr.mem]
        refine ⟨?_, ?_⟩
        · rintro (hu | rfl)
          · exact Or.inl ⟨hu, fun heq => hitree (heq ▸ hu)⟩
          · exact Or.inr ⟨rfl, hci, hkind, hb⟩
        · rintro (⟨hu, -⟩ | ⟨rfl, -⟩)
          · exact Or.inl hu
          · exact Or.inr rfl
  · have hrun : s.requeueCurrentCfsThreadBeforeIdle = .ok s := by
      rw [requeueCurrentCfsThreadBeforeIdle, hi, hc]
      simp only [h.isCfs c hc]
      rw [if_pos]
      simp only [Bool.or_eq_true, Bool.not_eq_true', decide_eq_false_iff_not]
      by_cases hkind : s.kind c = .cfs
      · exact Or.inr (by simpa using fun hb => hq ⟨hkind, hb⟩)
      · exact Or.inl (Or.inl hkind)
    rw [hrun, ok_bind, switchToIdleThread_eq hc hi hib]
    refine ⟨s.runq, _, i, rfl, switchTo_leave h hc h.tidy.runq (fun u => ?_) hib hispawned,
      Or.inl (Function.update_self ..), hchosen s.runq rfl rfl⟩
    refine ⟨fun hu => Or.inl ⟨hu, fun heq => hitree (heq ▸ hu)⟩, ?_⟩
    rintro (⟨hu, -⟩ | ⟨rfl, -, hkind, hb⟩)
    · exact hu
    · exact absurd ⟨hkind, hb⟩ hq

/-- Switching to the thread of an RT timer. -/
lemma switchToRtThread_ends (h : s.Base) (hc : s.current = some c)
    (hnext : s.ktimers.next = some (.rt n)) :
    Ends s.SwitchFault (s.switchToRtThread c n) s.Picks := by
  -- the chosen timer is linked, so its thread is not blocked
  have hlinked : s.ktimers.Linked (.rt n) := by
    rw [h.next] at hnext
    exact Or.inl (List.mem_of_mem_head? hnext)
  obtain ⟨hnkind, hnb⟩ : s.kind n = .rt ∧ (s.state n).isBlocked = false :=
    (h.ok n).timer.mp hlinked
  have hns : n ∈ s.spawned := h.mem_spawned (by rw [hnkind]; decide)
  have hntree : n ∉ s.runq.tree := fun hmem => by
    have hcfs : s.kind n = .cfs := ((h.ok n).queued.mp hmem).1
    exact absurd (hcfs.symm.trans hnkind) (by decide)
  have hrt : decide (s.kind n = .cfs) = false := by rw [hnkind]; rfl
  have hleave : (s.leave c n).isBlocked = false := by
    unfold leave
    split
    · exact hnb
    · by_cases hcn : n = c
      · rw [hcn, Function.update_self]
        rfl
      · rwa [Function.update_of_ne hcn]
  rw [switchToRtThread]
  refine Ends.bind (P := fun s₁ => ∃ r, s₁ = { s with state := s.leave c, runq := r } ∧
    r.Ordered ∧ (r.entity = s.runq.entity ∧ r.prioritySum = s.runq.prioritySum) ∧
      ∀ u, u ∈ r.tree ↔ (u ∈ s.runq.tree ∧ u ≠ n) ∨
        (u = c ∧ c ≠ n ∧ s.kind c = .cfs ∧ (s.state c).isBlocked = false)) ?_ ?_
  · unfold requeueCurrent
    by_cases hb : (s.state c).isBlocked = true
    · rw [if_pos hb]
      refine ⟨s.runq, ?_, h.tidy.runq, ⟨rfl, rfl⟩, fun u => ?_⟩
      · rw [leave, if_pos hb]
      · simp only [hb, Bool.true_eq_false, and_false, or_false]
        exact ⟨fun hu => ⟨hu, fun heq => hntree (heq ▸ hu)⟩, fun hu => hu.1⟩
    · have hb' : (s.state c).isBlocked = false := by simpa using hb
      rw [if_neg hb, setState_leave hb', ok_bind]
      by_cases hkind : s.kind c = .cfs
      · have hcn : c ≠ n := by
          rintro rfl
          exact absurd (hkind.symm.trans hnkind) (by decide)
        have hcond : (s.currentIsCfs && !s.isIdleThread c) = true := by
          rw [h.isCfs c hc, isIdleThread_eq_false h hkind, hkind]
          rfl
        rw [if_pos (by exact hcond)]
        refine (requeue_ends (l := s.runq.tree) h hc hkind h.tidy.runq fun _ hu => hu).bind
          fun r hr => ⟨r, rfl, hr.ordered, ⟨hr.entity, hr.prioritySum⟩, fun u => ?_⟩
        rw [hr.mem]
        refine ⟨?_, ?_⟩
        · rintro (hu | rfl)
          · exact Or.inl ⟨hu, fun heq => hntree (heq ▸ hu)⟩
          · exact Or.inr ⟨rfl, hcn, hkind, hb'⟩
        · rintro (⟨hu, -⟩ | ⟨rfl, -⟩)
          · exact Or.inl hu
          · exact Or.inr rfl
      · have hcond : ¬ (s.currentIsCfs && !s.isIdleThread c) = true := by
          rw [h.isCfs c hc]
          simp [hkind]
        rw [if_neg (by exact hcond)]
        refine ⟨s.runq, rfl, h.tidy.runq, ⟨rfl, rfl⟩, fun u => ?_⟩
        simp only [hkind, false_and, and_false, or_false]
        exact ⟨fun hu => ⟨hu, fun heq => hntree (heq ▸ hu)⟩, fun hu => hu.1⟩
  · rintro _ ⟨r, rfl, hr, ⟨hent, hsum⟩, hmem⟩
    rw [setState_running (s := { s with state := s.leave c, runq := r }) hleave, ok_bind]
    refine ⟨r, _, n, ?_, switchTo_leave h hc hr hmem hnb hns, Or.inl (Function.update_self ..),
      fun t ht => ?_, fun hcfs => ?_, fun hcfs => ?_, fun hno => absurd hnext (hno n), hent, hsum⟩
    · rw [switched, hrt]
    · rw [hnext] at ht
      simpa using ht
    · rw [hnext] at hcfs
      cases hcfs
    · rw [hnext] at hcfs
      cases hcfs

/-- The active CFS timer, once the thread `n` has been popped. -/
lemma runPopped_ends (h : s.Base) (hc : s.current = some c) {l : List Tid}
    (htree : s.runq.tree = n :: l) (hnext : s.ktimers.next = some .cfs) :
    Ends s.SwitchFault (runPopped { s with runq := { s.runq with tree := l } } c n) s.Picks := by
  have hinc : Increasing s.runq.cmp (n :: l) := htree ▸ h.tidy.runq
  have hl : RunQueue.Ordered { s.runq with tree := l } := (List.pairwise_cons.mp hinc).2
  have hnl : n ∉ l := (List.nodup_cons.mp (Increasing.nodup hinc)).1
  have hsub : ∀ u ∈ l, u ∈ s.runq.tree := fun u hu => by
    rw [htree]
    exact List.mem_cons_of_mem _ hu
  obtain ⟨hnkind, hnready⟩ : s.kind n = .cfs ∧ s.state n = .ready :=
    (h.ok n).queued.mp (by change n ∈ s.runq.tree; rw [htree]; exact List.mem_cons_self ..)
  have hnb : (s.state n).isBlocked = false := by rw [hnready]; rfl
  have hns : n ∈ s.spawned := h.mem_spawned (by rw [hnkind]; decide)
  have hcfs : decide (s.kind n = .cfs) = true := by rw [hnkind]; rfl
  have hmem : ∀ u, u ∈ l ↔ u ∈ s.runq.tree ∧ u ≠ n := by
    intro u
    rw [htree, List.mem_cons]
    refine ⟨fun hu => ⟨Or.inr hu, fun heq => hnl (heq ▸ hu)⟩, fun hu => hu.1.resolve_left hu.2⟩
  -- the chosen thread has the least virtual runtime
  have hleast : ∀ u ∈ l, (s.runq.entity n).vruntime ≤ (s.runq.entity u).vruntime := fun u hu =>
    RunQueue.vruntime_le_of_lt ((List.pairwise_cons.mp hinc).1 u hu)
  have hchosen : ∀ (r : RunQueue) (m : Tid), r.entity = s.runq.entity →
      r.prioritySum = s.runq.prioritySum → s.kind m = .cfs →
      (∀ u ∈ r.tree, (s.runq.entity m).vruntime ≤ (s.runq.entity u).vruntime) →
      (s.kind c = .cfs → (s.state c).isBlocked = false → m = c ∨
        (s.runq.entity n).vruntime < (s.runq.entity c).vruntime) →
      s.Chosen r m := by
    refine fun r m hent hsum hkind hle hkept => ⟨fun t ht => ?_, fun _ _ => ⟨hkind, hle⟩,
      fun _ _ c' hc' hkind' hb' => ?_, fun _ hempty => ?_, hent, hsum⟩
    · rw [hnext] at ht
      cases ht
    · obtain rfl : c = c' := Option.some.inj (hc.symm.trans hc')
      refine (hkept hkind' hb').imp id fun hlt => ⟨n, ?_, hlt⟩
      rw [htree]
      exact List.mem_cons_self ..
    · rw [hempty hnext] at htree
      cases htree
  -- a switch to `n` in which the current thread is not queued
  have hdirect : (s.kind c = .cfs → (s.state c).isBlocked = true) →
      SwitchTo s { s.runq with tree := l } (Function.update (s.leave c) n .running) n := by
    intro hout
    refine switchTo_leave h hc hl (fun u => ?_) hnb hns
    rw [hmem]
    refine ⟨Or.inl, ?_⟩
    rintro (hu | ⟨-, -, hkind, hb⟩)
    · exact hu
    · rw [hout hkind] at hb
      exact absurd hb (by decide)
  unfold runPopped
  by_cases hkind : s.kind c = .cfs
  · have hiscfs : s.currentIsCfs = true := (h.isCfs c hc).trans (by rw [hkind]; rfl)
    rw [if_pos hiscfs]
    by_cases hb : (s.state c).isBlocked = true
    · rw [if_pos (by simp [hb]), switchToCfsThread_eq
        (s := { s with runq := { s.runq with tree := l } }) hc hnb hnkind]
      refine ⟨_, _, n, rfl, hdirect fun _ => hb, Or.inl (Function.update_self ..),
        hchosen _ n rfl rfl hnkind hleast fun _ hb' => ?_⟩
      rw [hb] at hb'
      cases hb'
    · have hb' : (s.state c).isBlocked = false := by simpa using hb
      have hcond : ¬ ((s.state c).isBlocked || s.isIdleThread c) = true := by
        rw [hb', isIdleThread_eq_false h hkind]
        decide
      rw [if_neg (by exact hcond)]
      split
      · -- the popped thread is the current one
        rename_i hcn
        exact Or.inr ⟨⟨c, hc, hkind, hcn ▸ hnready⟩, Or.inr rfl⟩
      · rename_i hcn
        split
        · rename_i hless
          rw [setState_leave (s := { s with runq := { s.runq with tree := l } }) hb', ok_bind]
          refine (requeue_ends h hc hkind hl hsub).bind fun r hr => ?_
          have hleave : (s.leave c n).isBlocked = false := by
            rwa [leave, if_neg hb, Function.update_of_ne (Ne.symm hcn)]
          refine (Ends.of_exists ⟨_, setState_running (s := { s with
            state := s.leave c, runq := r }) hleave, rfl⟩).bind fun s₂ hs₂ => ?_
          subst hs₂
          refine ⟨r, _, n, ?_, switchTo_leave h hc hr.ordered (fun u => ?_) hnb hns,
            Or.inl (Function.update_self ..),
            hchosen r n hr.entity hr.prioritySum hnkind (fun u hu => ?_) fun _ _ => Or.inr hless⟩
          · rw [switched, hcfs]
          swap
          · rcases (hr.mem u).mp hu with hu | rfl
            · exact hleast u hu
            · exact hless.le
          · rw [hr.mem]
            change (u ∈ l ∨ u = c) ↔ _
            rw [hmem]
            refine ⟨?_, ?_⟩
            · rintro (hu | rfl)
              · exact Or.inl hu
              · exact Or.inr ⟨rfl, hcn, hkind, hb'⟩
            · rintro (hu | ⟨rfl, -⟩)
              · exact Or.inl hu
              · exact Or.inr rfl
        · -- the current thread goes on and the popped one is put back
          rename_i hless
          obtain ⟨r, hins, hr⟩ := RunQueue.insert_spec hl hnl
          rw [hins, ok_bind]
          have hmem' : ∀ u, u ∈ r.tree ↔ u ∈ s.runq.tree := by
            intro u
            rw [hr.mem, htree, List.mem_cons, or_comm]
          refine ⟨r, s.state, c, ?_, ⟨hr.ordered, fun u => ?_, fun u => Or.inl rfl, fun u hu => ?_,
            hb', h.spawned c hc, fun u _ => rfl⟩, ?_,
            hchosen r c hr.entity hr.prioritySum hkind (fun u hu => ?_) fun _ _ => Or.inl rfl⟩
          · rw [switched, ← hc, ← h.isCfs c hc]
          · rw [hmem']
            exact (h.ok u).queued
          · have hcu : some c = some u := hc.symm.trans (h.running u hu)
            simpa using hcu.symm
          · cases hstate : s.state c with
            | running => exact Or.inl rfl
            | ready => exact Or.inr ⟨c, hc, hkind, hstate⟩
            | waiting | suspended => exact absurd (hstate ▸ hb' : _) (by decide)
          · have hcn' : (s.runq.entity c).vruntime ≤ (s.runq.entity n).vruntime :=
              not_lt.mp hless
            rcases (hr.mem u).mp hu with hu | rfl
            · exact hcn'.trans (hleast u hu)
            · exact hcn'
  · have hiscfs : ¬ s.currentIsCfs = true := by
      rw [h.isCfs c hc]
      simpa using hkind
    have hcn : c ≠ n := by
      rintro rfl
      exact hkind hnkind
    rw [if_neg hiscfs, readyUnlessBlocked_eq, ok_bind]
    have hleave : (s.leave c n).isBlocked = false := by
      unfold leave
      split
      · exact hnb
      · rwa [Function.update_of_ne (Ne.symm hcn)]
    have hswitch := switchToCfsThread_eq (s := { s with
      runq := { s.runq with tree := l }, state := s.leave c }) hc hleave hnkind
    rw [leave_idem] at hswitch
    refine Ends.of_exists ⟨_, hswitch, ?_⟩
    exact ⟨_, _, n, rfl, hdirect fun hk => absurd hk hkind, Or.inl (Function.update_self ..),
      hchosen _ n rfl rfl hnkind hleast fun hk => absurd hk hkind⟩

/-- **The choice of the next thread.** -/
theorem pickNext_ends (h : s.Base) (hc : s.current = some c) :
    Ends s.SwitchFault (s.pickNext c) s.Picks := by
  unfold pickNext
  cases hnext : s.ktimers.next with
  | none => exact switchToIdle_ends h hc (by simp [hnext]) (by simp [hnext])
  | some k =>
      cases k with
      | cfs =>
          simp only
          split
          · cases htree : s.runq.tree with
            | nil => exact switchToIdle_ends h hc (by simp [hnext]) fun _ => htree
            | cons n l => exact runPopped_ends h hc htree hnext
          · -- the chosen timer is active
            rename_i hflag
            rw [h.next] at hnext
            exact absurd (h.tidy.ktimers.flag_active _ (List.mem_of_mem_head? hnext)) hflag
      | wait =>
          -- the wait timer is never active
          refine absurd ?_ h.tidy.ktimers.wait_notMem
          rw [h.next] at hnext
          exact List.mem_of_mem_head? hnext
      | rt n => exact switchToRtThread_ends h hc hnext

/-! ### The switch -/

/-- The run queue once the current thread has been charged: only a CFS thread that runs is. -/
def Charges (s : Sched) (elapsed : ℕ) (r : RunQueue) : Prop :=
  ∃ c, s.current = some c ∧
    if s.kind c = .cfs ∧ s.state c = .running then s.runq.charge c elapsed = .ok r else r = s.runq

/-- Charging the running thread moves no thread. -/
lemma chargeCurrent_ends (h : s.Base) (hc : s.current = some c) (elapsed : ℕ) :
    Ends s.SwitchFault (s.chargeCurrent c elapsed) fun s₁ =>
      ∃ r, s₁ = { s with runq := r } ∧ s.Charges elapsed r ∧ r.Ordered ∧
        r.tree = s.runq.tree := by
  have hidle : s.kind c = .cfs → s.isIdleThread c = false := isIdleThread_eq_false h
  unfold chargeCurrent
  split
  · rename_i hcond
    simp only [Bool.and_eq_true, decide_eq_true_eq, h.isCfs c hc] at hcond
    have hrunning : s.state c = .running := hcond.1.2
    have hmem : c ∉ s.runq.tree := fun hmem => by
      have hready : s.state c = .ready := ((h.ok c).queued.mp hmem).2
      rw [hready] at hrunning
      exact absurd hrunning (by decide)
    refine ((RunQueue.charge_spec h.tidy.runq hmem elapsed).named.mono (fun f hf => Or.inl hf)
      fun _ hr => hr).bind fun r ⟨hrun, hr⟩ => ⟨r, rfl, ⟨c, hc, ?_⟩, hr⟩
    rw [if_pos hcond.1]
    exact hrun
  · rename_i hcond
    refine ⟨s.runq, rfl, ⟨c, hc, ?_⟩, h.tidy.runq, rfl⟩
    rw [if_neg]
    rintro ⟨hkind, hrunning⟩
    exact hcond (by simp [h.isCfs c hc, hkind, hrunning, hidle hkind])

lemma base_runq (h : s.Base) (hr : r.Ordered) (htree : r.tree = s.runq.tree) :
    Base { s with runq := r } := by
  refine Keeps.base h ⟨⟨h.tidy.ktimers, hr, h.tidy.waitq, h.tidy.suspended, h.tidy.waiters⟩,
    fun u => ?_, h.cfs, h.wait, h.next, fun _ => rfl, fun _ hu => hu, fun _ _ => rfl,
    ⟨rfl, rfl, rfl, rfl, rfl, rfl⟩⟩
  have hplace : place { s with runq := r } u = s.place u := by
    ext <;> simp [place, htree]
  rw [hplace]
  exact h.ok u

/-- What a context switch does that charges the interval `elapsed`. -/
structure Switches (elapsed : ℕ) (s s' : Sched) : Prop where
  inv : s'.Inv
  pendsv : s'.pendsv = false
  current : ∃ n, s'.current = some n ∧ (s'.state n = .running ∨ s.CurReady) ∧
    ∀ t, s.ktimers.next = some (.rt t) → n = t
  blocked : ∀ u, s'.state u = s.state u ∨
    ((s'.state u).isBlocked = false ∧ (s.state u).isBlocked = false)
  kind : s'.kind = s.kind
  spawned : s'.spawned = s.spawned
  ktimers : s'.ktimers = s.ktimers
  waitq : s'.waitq = s.waitq
  waiters : s'.waiters = s.waiters
  keys : s'.deadlineAt = s.deadlineAt
  idle : s'.idle = s.idle
  charged : ∃ r, s.Charges elapsed r ∧ s'.runq.entity = r.entity ∧
    s'.runq.prioritySum = r.prioritySum
  toCfs : s.ktimers.next = some .cfs → s.runq.tree ≠ [] → ∃ n, s'.current = some n ∧
    s.kind n = .cfs ∧
    ∀ u ∈ s'.runq.tree, (s'.runq.entity n).vruntime ≤ (s'.runq.entity u).vruntime
  kept : s.ktimers.next = some .cfs → s.runq.tree ≠ [] → ∀ c, s.current = some c →
    s.kind c = .cfs → (s.state c).isBlocked = false → s'.current = some c ∨
      ∃ u ∈ s.runq.tree, (s'.runq.entity u).vruntime < (s'.runq.entity c).vruntime
  toIdle : (∀ t, s.ktimers.next ≠ some (.rt t)) →
    (s.ktimers.next = some .cfs → s.runq.tree = []) → s'.current = s.idle

/-- **Specification of `schedule`.** -/
theorem schedule_spec (h : s.Base) (hc : s.current = some c) (port : TimerPort) :
    Ends s.SwitchFault (s.schedule port)
      (Switches (s.ktimers.elapsedTicksSinceLastInterrupt port) s) := by
  have hrun : s.schedule port = (do
      let s ← s.chargeCurrent c (s.ktimers.elapsedTicksSinceLastInterrupt port)
      let s ← s.pickNext c
      .ok { s with pendsv := false }) := by
    rw [schedule, hc]
  rw [hrun]
  refine (chargeCurrent_ends h hc _).bind ?_
  rintro _ ⟨r, rfl, hcharge, hr, htree⟩
  have h₁ := base_runq h hr htree
  refine (pickNext_ends h₁ hc).bind ?_
  rintro _ ⟨r', σ, n, rfl, hs, hrunning, hchosen⟩
  have hent : r'.entity = r.entity := hchosen.entity
  refine ⟨hs.inv h₁ hc, rfl, ⟨n, rfl, hrunning, hchosen.rt⟩, hs.blocked, rfl, rfl, rfl, rfl, rfl,
    rfl, rfl, ⟨r, hcharge, hent, hchosen.prioritySum⟩, fun hcfs hne => ?_,
    fun hcfs hne c' hc' hkind hb => ?_, fun hno hempty => ?_⟩
  · obtain ⟨hkind, hle⟩ := hchosen.cfs hcfs (by rwa [htree])
    refine ⟨n, rfl, hkind, ?_⟩
    change ∀ u ∈ r'.tree, (r'.entity n).vruntime ≤ (r'.entity u).vruntime
    rw [hent]
    exact hle
  · refine (hchosen.kept hcfs (by rwa [htree]) c' hc' hkind hb).imp (congrArg some) ?_
    rintro ⟨u, hu, hlt⟩
    refine ⟨u, htree ▸ hu, ?_⟩
    change (r'.entity u).vruntime < (r'.entity c').vruntime
    rw [hent]
    exact hlt
  · exact (hchosen.idle hno (by rwa [htree])).symm

end Sched

end Rtsched

import Rtsched.Kernel.Reach

/-!
A wake-up between the blocking of a thread and the switch it requested.

Blocking and switching out are two steps.  A CFS thread that is woken in between is in the run
queue while it is still the current thread, and `schedule` tells this from its state alone.

* `Sched.Clashes`: the states in which `schedule` runs into such a thread.
* `Sched.schedule_clash_iff`: **a switch fails on a link of the run queue exactly then**.
* `Kernel.reachable_requeue`: in every run, no other step fails on a link.
-/

namespace Rtsched

open Ordered Outcome

namespace Sched

variable {s : Sched} {c n : Tid}

/-- The CFS timer is chosen and the first queued thread is another one, whose virtual runtime is
not below that of the current thread: `schedule` puts it back and lets the current thread run. -/
def KeepsCurrent (s : Sched) (c : Tid) : Prop :=
  s.ktimers.next = some .cfs ∧ ∃ n l, s.runq.tree = n :: l ∧ n ≠ c ∧
    ¬ (s.runq.entity n).vruntime < (s.runq.entity c).vruntime

/-- The current thread is a CFS thread that is ready, so it is in the run queue, and the switch
does not let it run on. -/
def Clashes (s : Sched) : Prop :=
  ∃ c, s.current = some c ∧ s.kind c = .cfs ∧ s.state c = .ready ∧ ¬ s.KeepsCurrent c

/-- A fault on a link of the run queue. -/
def LinkFault (f : Fault) : Prop := f = .alreadyLinked ∨ f = .poppedCurrent

lemma LinkFault.not_benign {f : Fault} (h : LinkFault f) : ¬ f.Benign := by
  rcases h with rfl | rfl <;> decide

/-- No time is charged to a thread that is not running. -/
lemma schedule_of_ready (hc : s.current = some c) (hready : s.state c = .ready)
    (port : TimerPort) :
    s.schedule port = (do
      let s ← s.pickNext c
      .ok { s with pendsv := false }) := by
  have hcharge : s.chargeCurrent c (s.ktimers.elapsedTicksSinceLastInterrupt port) = .ok s := by
    rw [chargeCurrent, if_neg (by simp [hready])]
  rw [schedule, hc]
  simp only [hcharge, ok_bind]

/-- The chosen CFS timer is active. -/
lemma Base.cfs_active (h : s.Base) (hnext : s.ktimers.next = some .cfs) :
    (s.ktimers.entity .cfs).active = true := by
  rw [h.next] at hnext
  exact h.tidy.ktimers.flag_active .cfs (List.mem_of_mem_head? hnext)

section Ready

variable (h : s.Base) (hc : s.current = some c) (hkind : s.kind c = .cfs)
  (hready : s.state c = .ready)

include h hkind hready

/-- A ready CFS thread is in the run queue. -/
lemma Base.mem_runq : c ∈ s.runq.tree := (h.ok c).queued.mpr ⟨hkind, hready⟩

include hc

/-- The fallback to the idle thread finds the current thread in the run queue. -/
lemma switchToIdle_clash :
    s.switchToIdleThreadWithCurrentRequeued = .error .alreadyLinked := by
  obtain ⟨i, hi⟩ := Option.isSome_iff_exists.mp (h.hasIdle (by rw [hc]; rfl))
  have hrun : s.requeueCurrentCfsThreadBeforeIdle = .error .alreadyLinked := by
    rw [requeueCurrentCfsThreadBeforeIdle, hi, hc]
    have hb : (s.state c).isBlocked = false := by rw [hready]; rfl
    simp only [h.isCfs c hc, hkind, isIdleThread_eq_false h hkind, hb, decide_true, Bool.not_true,
      Bool.or_self, Bool.false_eq_true, if_false, h.mem_runq hkind hready, if_true]
  rw [switchToIdleThreadWithCurrentRequeued, hrun, error_bind]

/-- The switch to an RT thread queues the current thread again. -/
lemma switchToRtThread_clash (n : Tid) : s.switchToRtThread c n = .error .alreadyLinked := by
  have hb : (s.state c).isBlocked = false := by rw [hready]; rfl
  have hcond : (s.currentIsCfs && !s.isIdleThread c) = true := by
    rw [h.isCfs c hc, isIdleThread_eq_false h hkind, hkind]
    rfl
  have hins : s.runq.insert c = .error .alreadyLinked := by
    rw [RunQueue.insert, link, if_pos (h.mem_runq hkind hready), error_bind]
  have hrun : s.requeueCurrent c = .error .alreadyLinked := by
    rw [requeueCurrent, if_neg (by simp [hb]), setState_leave hb, ok_bind,
      if_pos (by exact hcond)]
    exact congrArg (· >>= _) hins
  rw [switchToRtThread, hrun, error_bind]

/-- The popped thread is the current thread itself, takes over from it, or is put back. -/
lemma runPopped_of_ready {l : List Tid} (htree : s.runq.tree = n :: l) :
    runPopped { s with runq := { s.runq with tree := l } } c n =
      if c = n then .error .poppedCurrent
      else if (s.runq.entity n).vruntime < (s.runq.entity c).vruntime then .error .alreadyLinked
      else .ok { s with runq := { s.runq with tree := ordInsert s.runq.cmp n l } } := by
  have hb : (s.state c).isBlocked = false := by rw [hready]; rfl
  have hcfs : s.currentIsCfs = true := (h.isCfs c hc).trans (by rw [hkind]; rfl)
  have hcond : ¬ ((s.state c).isBlocked || s.isIdleThread c) = true := by
    rw [hb, isIdleThread_eq_false h hkind]
    decide
  have hmem : c = n ∨ c ∈ l := by
    have hmem := h.mem_runq hkind hready
    rwa [htree, List.mem_cons] at hmem
  have hnl : n ∉ l := by
    have hnodup := Increasing.nodup h.tidy.runq
    rw [htree] at hnodup
    exact (List.nodup_cons.mp hnodup).1
  rw [runPopped, if_pos hcfs, if_neg (by exact hcond)]
  by_cases hcn : c = n
  · rw [if_pos hcn, if_pos hcn]
  · rw [if_neg hcn, if_neg hcn]
    by_cases hlt : (s.runq.entity n).vruntime < (s.runq.entity c).vruntime
    · rw [if_pos (by exact hlt), if_pos hlt,
        setState_leave (s := { s with runq := { s.runq with tree := l } }) hb, ok_bind]
      have hins : RunQueue.insert { s.runq with tree := l } c = .error .alreadyLinked := by
        rw [RunQueue.insert, link, if_pos (hmem.resolve_left hcn), error_bind]
      exact congrArg (· >>= _) hins
    · rw [if_neg (by exact hlt), if_neg hlt]
      simp only [RunQueue.insert, link_of_notMem hnl, ok_bind]
      rfl

/-- The switch goes through when the current thread runs on. -/
lemma schedule_of_keepsCurrent (hk : s.KeepsCurrent c) (port : TimerPort) :
    ∃ s', s.schedule port = .ok s' := by
  obtain ⟨hnext, n, l, htree, hne, hlt⟩ := hk
  have hpick : s.pickNext c =
      .ok { s with runq := { s.runq with tree := ordInsert s.runq.cmp n l } } := by
    rw [pickNext, hnext]
    simp only [h.cfs_active hnext, if_true, htree]
    rw [runPopped_of_ready h hc hkind hready htree, if_neg (Ne.symm hne), if_neg hlt]
  rw [schedule_of_ready hc hready, hpick]
  exact ⟨_, rfl⟩

/-- Otherwise it fails on a link. -/
lemma schedule_of_not_keepsCurrent (hk : ¬ s.KeepsCurrent c) (port : TimerPort) :
    ∃ f, s.schedule port = .error f ∧ LinkFault f := by
  have hpick : ∃ f, s.pickNext c = .error f ∧ LinkFault f := by
    unfold pickNext
    cases hnext : s.ktimers.next with
    | none => exact ⟨_, switchToIdle_clash h hc hkind hready, Or.inl rfl⟩
    | some k =>
        cases k with
        | cfs =>
            have hmem := h.mem_runq hkind hready
            simp only [h.cfs_active hnext, if_true]
            cases htree : s.runq.tree with
            | nil =>
                rw [htree] at hmem
                cases hmem
            | cons n l =>
                simp only
                rw [runPopped_of_ready h hc hkind hready htree]
                by_cases hcn : c = n
                · exact ⟨_, if_pos hcn, Or.inr rfl⟩
                · rw [if_neg hcn, if_pos]
                  · exact ⟨_, rfl, Or.inl rfl⟩
                  · by_contra hlt
                    exact hk ⟨hnext, n, l, htree, Ne.symm hcn, hlt⟩
        | wait =>
            refine absurd ?_ h.tidy.ktimers.wait_notMem
            rw [h.next] at hnext
            exact List.mem_of_mem_head? hnext
        | rt n => exact ⟨_, switchToRtThread_clash h hc hkind hready n, Or.inl rfl⟩
  obtain ⟨f, hrun, hf⟩ := hpick
  rw [schedule_of_ready hc hready, hrun]
  exact ⟨f, rfl, hf⟩

end Ready

/-- **A switch fails on a link of the run queue exactly when it clashes.** -/
theorem schedule_clash_iff (h : s.Base) (hc : s.current = some c) (port : TimerPort) :
    (∃ f, s.schedule port = .error f ∧ LinkFault f) ↔ s.Clashes := by
  refine ⟨?_, ?_⟩
  · rintro ⟨f, hrun, hf⟩
    rcases (schedule_spec h hc port).error hrun with rfl | ⟨⟨d, hd, hkind, hready⟩, -⟩
    · exact absurd (Or.inr (Or.inl rfl)) hf.not_benign
    · refine ⟨d, hd, hkind, hready, fun hk => ?_⟩
      obtain ⟨s', hok⟩ := schedule_of_keepsCurrent h hd hkind hready hk port
      rw [hok] at hrun
      cases hrun
  · rintro ⟨d, hd, hkind, hready, hk⟩
    exact schedule_of_not_keepsCurrent h hd hkind hready hk port

end Sched

namespace Kernel

variable {α : Type} {k : Kernel α} {ev : Event α}

lemma lift_error {x : Except Fault Sched} {f : Fault} : k.lift x = .error f ↔ x = .error f := by
  cases x with
  | ok s => simp [lift]
  | error g => simp [lift]

/-- A step that is not a switch fails on no link. -/
lemma StepFault.not_link {f : Fault} (hf : k.StepFault ev f) (hev : ev.isSchedule = false) :
    ¬ Sched.LinkFault f := by
  intro hl
  refine hl.not_benign ?_
  cases ev with
  | schedule _ => cases hev
  | _ => exact hf

/-- **Links of the run queue in every run.**  Whatever the interleaving of blocking sections,
wake-ups, ticks and switches: every thread is in the run queue at most once, the thread that runs
is not in it, and a step fails on a link of the run queue exactly when it is a switch that finds
its own thread there. -/
theorem reachable_requeue (h : k.Reachable) :
    k.sched.runq.tree.Nodup ∧
    (∀ t, k.sched.current = some t → k.sched.state t = .running → t ∉ k.sched.runq.tree) ∧
    ∀ ev, k.Enabled ev →
      ((∀ f, k.exec ev = .error f → f ≠ .alreadyLinked ∧ f ≠ .poppedCurrent) ↔
        ¬ (ev.isSchedule = true ∧ k.sched.Clashes)) := by
  have hinv := reachable_inv h
  refine ⟨Increasing.nodup hinv.sched.tidy.runq, fun t _ hrun hmem => ?_, fun ev hen => ?_⟩
  · have hready : k.sched.state t = .ready := ((hinv.sched.ok t).queued.mp hmem).2
    rw [hrun] at hready
    exact absurd hready (by decide)
  · cases hev : ev.isSchedule with
    | false =>
        refine iff_of_true (fun f hrun => not_or.mp ?_) (by simp)
        exact ((exec_spec hinv.sched hinv.rings hen).error hrun).not_link hev
    | true =>
        obtain ⟨port, rfl⟩ := Event.isSchedule_iff.mp hev
        obtain ⟨c, hc⟩ := Option.isSome_iff_exists.mp hen.2
        rw [← Sched.schedule_clash_iff hinv.sched.toBase hc port]
        refine ⟨?_, fun hno f hrun => not_or.mp fun hf => hno ⟨rfl, f, lift_error.mp hrun, hf⟩⟩
        rintro hall ⟨-, f, hrun, hf⟩
        exact not_or.mpr (hall f (lift_error.mpr hrun)) hf

/-! ### A thread that is woken before it has switched out -/

/-- A CFS thread blocks on a semaphore, and an interrupt gives the semaphore before the switch. -/
def wokenTrial : Option (Kernel ℕ) := trial next
  [.spawnCfs 1 10, .start 0, .tick ⟨some 499, some 0⟩ 8, .schedule ⟨some 499, some 0⟩,
    .tick ⟨some 499, some 0⟩ 8, .schedule ⟨some 499, some 0⟩,
    .take (.binary 0) ⟨some 499, some 399⟩, .give (.binary 0)]

/-- The pending switch then queues a thread that is queued. -/
theorem schedule_queues_woken : ∃ k, wokenTrial = some k ∧ k.Reachable ∧
    k.Enabled (.schedule ⟨some 499, some 399⟩) ∧
    k.exec (.schedule ⟨some 499, some 399⟩) = .error .alreadyLinked := by
  have htest : wokenTrial.any (fun k => decide (k.Enabled (.schedule ⟨some 499, some 399⟩)) &&
      k.fault (.schedule ⟨some 499, some 399⟩) == some .alreadyLinked) = true := by decide +kernel
  obtain ⟨k, hk, htest⟩ := (Option.any_eq_true ..).mp htest
  simp only [Bool.and_eq_true, decide_eq_true_eq, beq_iff_eq] at htest
  exact ⟨k, hk, trial_reachable hk, htest.1, fault_eq_some.mp htest.2⟩

/-- In that state every step but the switch is safe. -/
theorem reachable_requeue_woken : ∃ k, wokenTrial = some k ∧
    k.sched.runq.tree.Nodup ∧
    (∀ t, k.sched.current = some t → k.sched.state t = .running → t ∉ k.sched.runq.tree) ∧
    ∀ ev, k.Enabled ev →
      ((∀ f, k.exec ev = .error f → f ≠ .alreadyLinked ∧ f ≠ .poppedCurrent) ↔
        ¬ (ev.isSchedule = true ∧ k.sched.Clashes)) := by
  obtain ⟨k, hk⟩ : ∃ k, wokenTrial = some k := Option.isSome_iff_exists.mp (by decide +kernel)
  exact ⟨k, hk, reachable_requeue (trial_reachable hk)⟩

end Kernel

end Rtsched

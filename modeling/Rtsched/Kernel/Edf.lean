import Rtsched.Kernel.Reach

/-!
Earliest deadline first.

`NEXT_KTIMER` is cached: every operation that touches the active tree refreshes it.

* `KTimers.Earliest q k`: the timer `k` is active and no active timer comes before it.
* `Kernel.reachable_edf`: **whenever a switch starts, the cached timer is the earliest active
  one**, and the thread of an RT timer is the one that runs next.
-/

namespace Rtsched

open Ordered Outcome

/-- The timer is active, and every other active timer expires later or, at the same time, has a
higher address. -/
def KTimers.Earliest (q : KTimers) (k : Timer) : Prop :=
  k ∈ q.active ∧ ∀ j ∈ q.active, j ≠ k →
    (q.entity k).expireAt < (q.entity j).expireAt ∨
      ((q.entity k).expireAt = (q.entity j).expireAt ∧ q.layout.addr k < q.layout.addr j)

/-- The head of an ordered active tree is the earliest timer. -/
lemma KTimers.Wf.earliest {q : KTimers} (h : q.Wf) {k : Timer} (hk : q.active.head? = some k) :
    q.Earliest k := by
  refine ⟨List.mem_of_mem_head? hk, fun j hj hne => ?_⟩
  have hlt : q.cmp k j = .lt := h.active.head_lt hk hj hne
  rw [cmp, keyCmp_eq_lt] at hlt
  rcases hlt with hlt | ⟨heq, hlt⟩
  · exact Or.inl (Nat.compare_eq_lt.mp hlt)
  · exact Or.inr ⟨Nat.compare_eq_eq.mp heq, hlt⟩

namespace Sched

variable {s : Sched}

/-- What the cached timer is. -/
structure Selects (s : Sched) : Prop where
  none_iff : s.ktimers.next = none ↔ s.ktimers.active = []
  earliest : ∀ k, s.ktimers.next = some k → s.ktimers.Earliest k
  ne_wait : s.ktimers.next ≠ some .wait
  rt : ∀ t, s.ktimers.next = some (.rt t) → s.kind t = .rt ∧ (s.state t).isBlocked = false

lemma Base.selects (h : s.Base) : s.Selects where
  none_iff := by rw [h.next, List.head?_eq_none_iff]
  earliest k hk := h.tidy.ktimers.earliest (h.next.symm.trans hk)
  ne_wait hk := h.tidy.ktimers.wait_notMem (List.mem_of_mem_head? (h.next.symm.trans hk))
  rt t hk := (h.ok t).timer.mp (Or.inl (List.mem_of_mem_head? (h.next.symm.trans hk)))

end Sched

namespace Kernel

variable {α : Type} {k : Kernel α} {port : TimerPort}

/-- **The selection of every switch.**  In every run, when a switch starts, the cached timer is
null exactly if no timer is active, and otherwise it is the earliest active timer; it is never the
wait timer, an RT timer belongs to an RT thread that is not blocked, and that thread is the
current one when the switch returns.  A switch fails only as `SwitchFault` says. -/
theorem reachable_edf (h : k.Reachable) (hen : k.Enabled (.schedule port)) :
    k.sched.Selects ∧
    Ends k.sched.SwitchFault (k.exec (.schedule port)) fun r =>
      ∀ t, k.sched.ktimers.next = some (.rt t) → r.1.sched.current = some t := by
  have hinv := reachable_inv h
  obtain ⟨c, hc⟩ := Option.isSome_iff_exists.mp hen.2
  refine ⟨hinv.sched.selects, ?_⟩
  refine (Sched.schedule_spec hinv.sched.toBase hc port).bind fun s hs t ht => ?_
  obtain ⟨n, hn, -, hnext⟩ := hs.current
  rw [← hnext t ht]
  exact hn

/-- A CFS thread, an RT thread and the first tick. -/
def firstTickTrial : Option (Kernel ℕ) := trial next
  [.spawnCfs 1 10, .spawnRt 2 ⟨900, 800, 100⟩, .start 0, .tick ⟨some 499, some 0⟩ 8]

/-- The RT thread is chosen. -/
theorem reachable_edf_first_tick : ∃ k, firstTickTrial = some k ∧
    k.sched.ktimers.next = some (.rt 2) ∧ k.sched.Selects ∧
    Ends k.sched.SwitchFault (k.exec (.schedule ⟨some 499, some 0⟩)) fun r =>
      ∀ t, k.sched.ktimers.next = some (.rt t) → r.1.sched.current = some t := by
  have htest : firstTickTrial.any (fun k => decide (k.Enabled (.schedule ⟨some 499, some 0⟩)) &&
      k.sched.ktimers.next == some (.rt 2)) = true := by decide +kernel
  obtain ⟨k, hk, htest⟩ := (Option.any_eq_true ..).mp htest
  simp only [Bool.and_eq_true, decide_eq_true_eq, beq_iff_eq] at htest
  exact ⟨k, hk, htest.2, reachable_edf (trial_reachable hk) htest.1⟩

end Kernel

end Rtsched

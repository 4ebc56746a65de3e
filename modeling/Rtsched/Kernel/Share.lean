import Rtsched.Kernel.Fair
import Rtsched.Kernel.Work

/-!
What the CFS threads get of the processor in a part of an aligned run: a pending switch comes before
any other step, and no CFS thread joins the empty run queue while another one is current and not
blocked, before that part or in it.

* `Fairness.window_share`: **while the same CFS threads are not blocked, the ticks that two of them
  are charged are inversely proportional to their priorities**, up to the largest charges and the
  rounding of each charge.
* `Fairness.window_wait`: **no CFS thread starves** beside CFS threads whose charges are not rounded
  down to nothing: while it waits, each of them is charged only so many times for each time that it
  is woken.
-/

namespace Rtsched

open Outcome

variable {α : Type}

/-! ### What a step does to the virtual runtime of a thread -/

namespace RunQueue

variable {r r' : RunQueue} {t : Tid}

/-- The charge is rounded down. -/
lemma charge_vruntime {elapsed : ℕ} (h : r.charge t elapsed = .ok r') :
    (r'.entity t).vruntime =
      (r.entity t).vruntime + elapsed * (r.entity t).priority / r.prioritySum := by
  rw [charge] at h
  split at h
  · rename_i hzero
    obtain rfl := Except.ok.inj h
    rw [hzero, Nat.div_zero, Nat.add_zero]
  · rename_i hne
    obtain ⟨delta, hdelta, h⟩ := bind_eq_ok.mp h
    have heq : delta = elapsed * (r.entity t).priority / r.prioritySum := by
      rw [cfsVruntimeDelta, if_neg hne] at hdelta
      split at hdelta
      · cases hdelta
      · split at hdelta
        · cases hdelta
        · exact (Except.ok.inj hdelta).symm
    split at h
    · cases h
    · obtain rfl := Except.ok.inj h
      rw [setEntity_self, heq]

end RunQueue

namespace Sched

variable {s s' : Sched} {t u : Tid}

/-- The virtual runtime and the priority of a thread are as before. -/
structure SameShare (t : Tid) (r r' : RunQueue) : Prop where
  vruntime : (r'.entity t).vruntime = (r.entity t).vruntime
  priority : (r'.entity t).priority = (r.entity t).priority

/-- An action that is no switch leaves the threads that are not blocked alone. -/
lemma Act.sameShare {l : Label} (h : s.Inv) (ha : Act l s s') (hl : l ≠ .switches)
    (ht : s.Awake t) : SameShare t s.runq s'.runq := by
  cases ha.cfsAct h with
  | same hrunq _ _ _ =>
      rw [hrunq]
      exact ⟨rfl, rfl⟩
  | drops _ hrunq _ _ _ =>
      rw [hrunq]
      exact ⟨rfl, rfl⟩
  | @joins ts hnodup hts hrunq _ _ _ =>
      refine (RunQueue.foldlM_enqueueFromWaitq
        (I := fun r rest => SameShare t s.runq r ∧ t ∉ rest) (fun r₁ r₂ u rest _ _ hI hj _ => ?_)
        ts hnodup h.tidy.runq (fun u hu hmem => ?_) ⟨⟨rfl, rfl⟩, fun hmem => ?_⟩ hrunq).1
      · obtain ⟨hsame, hnot⟩ := hI
        obtain ⟨hne, hrest⟩ := not_or.mp (List.mem_cons.not.mp hnot)
        refine ⟨⟨?_, (hj.priority t).trans hsame.priority⟩, hrest⟩
        rw [hj.vruntime, if_neg hne]
        exact hsame.vruntime
      · exact (hts u hu).2 (h.awake_iff.mpr (Or.inl hmem))
      · exact (hts t hmem).2 ht
  | switches hsw _ => exact absurd hsw hl
  | @spawns u priority hu _ hrunq _ _ _ =>
      have hnot := h.not_awake_of_fresh hu
      have hne : t ≠ u := by
        rintro rfl
        exact hnot ht
      have hmem : u ∉ s.runq.tree := fun hmem => hnot (h.awake_iff.mpr (Or.inl hmem))
      obtain ⟨hjoin, -⟩ := (RunQueue.enqueueThread_spec (h.tidy.runq.setEntity hmem
        ⟨0, 0, priority⟩) hmem).value hrunq
      refine ⟨?_, ?_⟩
      · rw [hjoin.vruntime, if_neg hne, RunQueue.setEntity_of_ne _ hne]
      · rw [hjoin.priority, RunQueue.setEntity_of_ne _ hne]

lemma Act.sets_runq (ha : Act (.sets u) s s') : s'.runq = s.runq := by
  cases ha with
  | sets _ _ _ hset => exact hset.queues.runq

lemma Act.sets_awake (ha : Act (.sets u) s s') (t : Tid) : s'.Awake t ↔ s.Awake t := by
  have hplace : s'.place t = s.place t := congrFun ha.sets_place t
  exact and_congr (by rw [show s'.kind t = s.kind t from congrArg Place.kind hplace])
    (by rw [show s'.state t = s.state t from congrArg Place.state hplace])

/-- A step that is no switch leaves the threads that are not blocked alone. -/
lemma Path.sameShare {ls : List Label} (h : s.Inv) (hpath : Path ls s s') (hl : StepLabels ls)
    (hsw : ls ≠ [.switches]) (ht : s.Awake t) : SameShare t s.runq s'.runq := by
  cases hl with
  | nil =>
      rw [hpath.eq_of_nil]
      exact ⟨rfl, rfl⟩
  | single l => exact hpath.act.sameShare h (fun heq => hsw (by rw [heq])) ht
  | boost v o elapsed u =>
      obtain ⟨s₁, ha, ha'⟩ := hpath.act_act
      rw [ha'.sets_runq]
      exact ha.sameShare h (by simp) ht
  | restore u v o =>
      obtain ⟨s₁, ha, ha'⟩ := hpath.act_act
      rw [← ha.sets_runq]
      exact ha'.sameShare (ha.inv h) (by simp) ((ha.sets_awake t).mpr ht)

/-- An action that is no switch and wakes and blocks no CFS thread leaves the run queue alone. -/
lemma Act.runq_eq {l : Label} (h : s.Inv) (ha : Act l s s') (hl : l ≠ .switches)
    (hawake : ∀ t, s'.Awake t ↔ s.Awake t) : s'.runq = s.runq := by
  cases ha.cfsAct h with
  | same hrunq _ _ _ => exact hrunq
  | drops ht _ _ hdrop _ => exact absurd rfl ((hdrop _).mp ((hawake _).mpr ht)).2
  | @joins ts _ hts hrunq _ hjoin _ =>
      cases ts with
      | nil => exact (Except.ok.inj hrunq).symm
      | cons t ts =>
          refine absurd ?_ (hts t (List.mem_cons_self ..)).2
          exact (hawake t).mp ((hjoin t).mpr (Or.inr (List.mem_cons_self ..)))
  | switches hsw _ => exact absurd hsw hl
  | spawns ht _ _ _ hspawn _ =>
      exact absurd ((hawake _).mp ((hspawn _).mpr (Or.inr rfl))) (h.not_awake_of_fresh ht)

lemma Path.runq_eq {ls : List Label} (h : s.Inv) (hpath : Path ls s s') (hl : StepLabels ls)
    (hsw : ls ≠ [.switches]) (hawake : ∀ t, s'.Awake t ↔ s.Awake t) : s'.runq = s.runq := by
  cases hl with
  | nil => rw [hpath.eq_of_nil]
  | single l => exact hpath.act.runq_eq h (fun heq => hsw (by rw [heq])) hawake
  | boost v o elapsed u =>
      obtain ⟨s₁, ha, ha'⟩ := hpath.act_act
      rw [ha'.sets_runq]
      exact ha.runq_eq h (by simp) fun t => (ha'.sets_awake t).symm.trans (hawake t)
  | restore u v o =>
      obtain ⟨s₁, ha, ha'⟩ := hpath.act_act
      rw [← ha.sets_runq]
      exact ha'.runq_eq (ha.inv h) (by simp) fun t => (hawake t).trans (ha.sets_awake t).symm

end Sched

/-! ### Parts of a run -/

namespace Sched

instance (s : Sched) : DecidablePred s.RunsCfs := fun _ => inferInstanceAs (Decidable (_ ∧ _))

end Sched

namespace Fairness

/-- The steps of a part of a run. -/
abbrev Steps (α : Type) := List (Fairness α × Event α × Fairness α)

variable {c₀ c c' : Fairness α} {ev : Event α} {l : Steps α} {t u : Tid} {S : ℕ}

/-! ### What is counted -/

/-- The virtual runtime of a thread. -/
def vruntime (c : Fairness α) (t : Tid) : ℕ := (c.kernel.sched.runq.entity t).vruntime

def priority (c : Fairness α) (t : Tid) : ℕ := (c.kernel.sched.runq.entity t).priority

def Awake (c : Fairness α) (t : Tid) : Prop := c.kernel.sched.Awake t

instance (c : Fairness α) : DecidablePred c.Awake := fun _ => inferInstanceAs (Decidable (_ ∧ _))

/-- The thread waits in the run queue. -/
def Queued (c : Fairness α) (t : Tid) : Prop := t ∈ c.kernel.sched.runq.tree

instance (c : Fairness α) : DecidablePred c.Queued := fun _ => inferInstanceAs (Decidable (_ ∈ _))

/-- The step wakes, blocks and creates no CFS thread. -/
def Steady (c c' : Fairness α) : Prop :=
  c'.kernel.sched.awakeThreads = c.kernel.sched.awakeThreads

instance : Decidable (Steady c c') := inferInstanceAs (Decidable (_ = _))

/-- One step of an aligned run: a pending switch comes first, and no CFS thread joins the empty run
queue beside one that is current and not blocked. -/
def Makes (c : Fairness α) (ev : Event α) (c' : Fairness α) : Prop :=
  ∃ k' reply, c.kernel.Enabled ev ∧ (c.kernel.sched.pendsv = true → ev.isSchedule = true) ∧
    c.kernel.exec ev = .ok (k', reply) ∧ c' = c.after ev k' ∧ ¬ JoinsBeside c.kernel c'.kernel

/-- The part of such a run that begins in a given state. -/
abbrev Window (c₀ : Fairness α) : Steps α → Fairness α → Prop := Runs.Run (· = c₀) Makes

/-- The step is a switch that charges the thread. -/
def Charges (t : Tid) (c : Fairness α) (ev : Event α) : Prop :=
  ev.isSchedule = true ∧ c.kernel.sched.RunsCfs t

instance : Decidable (Charges t c ev) := inferInstanceAs (Decidable (_ ∧ _))

/-- The ticks that a step charges to a thread. -/
def chargedTicks (t : Tid) (c : Fairness α) : Event α → ℕ
  | .schedule port =>
      if c.kernel.sched.RunsCfs t then c.kernel.sched.ktimers.elapsedTicksSinceLastInterrupt port
      else 0
  | _ => 0

/-- The ticks that have been charged to a thread. -/
def ticks (t : Tid) (l : Steps α) : ℕ := (l.map fun p => chargedTicks t p.1 p.2.1).sum

/-- How often a thread has been charged. -/
def charges (t : Tid) (l : Steps α) : ℕ := l.countP fun p => decide (Charges t p.1 p.2.1)

/-- How often a thread has become one that is not blocked: it was woken or created. -/
def wakes (t : Tid) (l : Steps α) : ℕ := l.countP fun p => decide (¬ p.1.Awake t ∧ p.2.2.Awake t)

lemma ticks_concat : ticks t (l ++ [(c, ev, c')]) = ticks t l + chargedTicks t c ev := by
  simp [ticks]

lemma charges_concat :
    charges t (l ++ [(c, ev, c')]) = charges t l + if Charges t c ev then 1 else 0 := by
  simp [charges, List.countP_append, List.countP_singleton]

lemma wakes_concat : wakes t (l ++ [(c, ev, c')]) =
    wakes t l + if ¬ c.Awake t ∧ c'.Awake t then 1 else 0 := by
  simp [wakes, List.countP_append, List.countP_singleton]

lemma chargedTicks_of_not (h : ¬ Charges t c ev) : chargedTicks t c ev = 0 := by
  cases ev with
  | schedule port => exact if_neg fun hrun => h ⟨rfl, hrun⟩
  | _ => rfl

/-! ### One step -/

lemma Makes.step (h : Makes c ev c') : Step c c' ∧ ¬ JoinsBeside c.kernel c'.kernel := by
  obtain ⟨k', reply, hen, hfirst, hrun, rfl, hjoin⟩ := h
  exact ⟨⟨ev, k', reply, hen, hfirst, hrun, rfl⟩, hjoin⟩

lemma Makes.largest_le (h : Makes c ev c') : c.largest ≤ c'.largest := by
  obtain ⟨k', reply, -, -, -, rfl, -⟩ := h
  change c.largest ≤ if ev.isSchedule then _ else _
  split
  · exact le_max_left ..
  · exact le_rfl

/-- **What a step does to the virtual runtime of a thread that is not blocked.** -/
lemma Makes.vruntime (hinv : c.Inv) (h : Makes c ev c') (ht : c.Awake t) :
    c'.vruntime t = c.vruntime t +
        chargedTicks t c ev * c.priority t / c.kernel.sched.runq.prioritySum ∧
      c'.priority t = c.priority t := by
  obtain ⟨k', reply, hen, -, hrun, rfl, -⟩ := h
  by_cases hsw : ev.isSchedule = true
  · obtain ⟨port, rfl⟩ := Event.isSchedule_iff.mp hsw
    have hswitches := hinv.kernel.switches hen hrun
    refine ⟨?_, hswitches.priority.2 t⟩
    obtain ⟨r, ⟨d, hd, hcharge⟩, hent, -⟩ := hswitches.charged
    change (k'.sched.runq.entity t).vruntime = _
    rw [hent, chargedTicks]
    by_cases hruns : c.kernel.sched.RunsCfs t
    · obtain rfl : t = d :=
        Option.some.inj ((hinv.kernel.sched.running t hruns.2).symm.trans hd)
      rw [if_pos hruns]
      rw [if_pos (show _ ∧ _ from hruns)] at hcharge
      exact RunQueue.charge_vruntime hcharge
    · rw [if_neg hruns, Nat.zero_mul, Nat.zero_div, Nat.add_zero]
      split at hcharge
      · rename_i hdruns
        have htd : t ≠ d := by
          rintro rfl
          exact hruns hdruns
        rw [(RunQueue.charge_keeps hcharge).2.2.1 t htd]
        rfl
      · rw [hcharge]
        rfl
  · obtain ⟨ls, hpath, hl⟩ := (hinv.kernel.does hen hrun).path
    have hsame := hpath.sameShare hinv.kernel.sched (Kernel.stepLabels_of hl)
      (fun heq => hsw (Kernel.isSchedule_of_switches (heq ▸ hl))) ht
    refine ⟨?_, hsame.priority⟩
    rw [chargedTicks_of_not fun hc => hsw hc.1, Nat.zero_mul, Nat.zero_div, Nat.add_zero]
    exact hsame.vruntime

/-- A step that wakes and blocks no CFS thread keeps the priority sum. -/
lemma Makes.steady (hinv : c.Inv) (h : Makes c ev c')
    (hsteady : Steady c c') :
    (∀ t, c'.Awake t ↔ c.Awake t) ∧
      c'.kernel.sched.runq.prioritySum = c.kernel.sched.runq.prioritySum := by
  have hinv' := hinv.step h.step.1 h.step.2
  have hawake : ∀ t, c'.Awake t ↔ c.Awake t := fun t => by
    have hmem : t ∈ c'.kernel.sched.awakeThreads ↔ t ∈ c.kernel.sched.awakeThreads := by
      rw [hsteady]
    exact hinv'.kernel.sched.mem_awakeThreads.symm.trans
      (hmem.trans hinv.kernel.sched.mem_awakeThreads)
  refine ⟨hawake, ?_⟩
  obtain ⟨k', reply, hen, -, hrun, rfl, -⟩ := h
  by_cases hsw : ev.isSchedule = true
  · obtain ⟨port, rfl⟩ := Event.isSchedule_iff.mp hsw
    exact (hinv.kernel.switches hen hrun).priority.1
  · obtain ⟨ls, hpath, hl⟩ := (hinv.kernel.does hen hrun).path
    exact congrArg RunQueue.prioritySum (hpath.runq_eq hinv.kernel.sched
      (Kernel.stepLabels_of hl) (fun heq => hsw (Kernel.isSchedule_of_switches (heq ▸ hl)))
      hawake)

lemma Window.reachable (h₀ : c₀.AlignedReachable) (h : Window c₀ l c) : c.AlignedReachable := by
  induction h with
  | start h => exact h ▸ h₀
  | step _ hs ih => exact .step ih hs.step

lemma reachable_kernel (h : c.AlignedReachable) : c.kernel.Reachable := by
  induction h with
  | start h => exact .start h.kernel
  | step _ hs ih =>
      obtain ⟨⟨ev, k', reply, hen, -, hrun, rfl⟩, -⟩ := hs
      exact .step ih ⟨ev, reply, hen, hrun⟩

/-! ### Shares -/

/-- What a charge takes from a thread, but for its rounding. -/
lemma le_charge (hS : S ≠ 0) : chargedTicks t c ev * c.priority t ≤
    S * (chargedTicks t c ev * c.priority t / S) + (S - 1) * if Charges t c ev then 1 else 0 := by
  by_cases hc : Charges t c ev
  · have hdiv := Nat.div_add_mod (chargedTicks t c ev * c.priority t) S
    have hmod := Nat.mod_lt (chargedTicks t c ev * c.priority t) (Nat.pos_of_ne_zero hS)
    rw [if_pos hc, Nat.mul_one]
    omega
  · rw [chargedTicks_of_not hc, Nat.zero_mul]
    exact Nat.zero_le _

/-- While the same threads are not blocked, the virtual runtime of each grows with the ticks it is
charged times its priority over their priority sum. -/
structure Grows (t : Tid) (S : ℕ) (c₀ : Fairness α) (l : Steps α) (c : Fairness α) : Prop where
  awake : c.Awake t
  sum : c.kernel.sched.runq.prioritySum = S
  priority : c.priority t = c₀.priority t
  le : S * c.vruntime t ≤ S * c₀.vruntime t + ticks t l * c₀.priority t
  ge : S * c₀.vruntime t + ticks t l * c₀.priority t ≤
    S * c.vruntime t + (S - 1) * charges t l

lemma Window.grows (h₀ : c₀.AlignedReachable) (h : Window c₀ l c)
    (hS : c₀.kernel.sched.runq.prioritySum = S) (hne : S ≠ 0) (ht : c₀.Awake t)
    (hsteady : ∀ p ∈ l, Steady p.1 p.2.2) : Grows t S c₀ l c := by
  induction h with
  | start h =>
      subst h
      exact ⟨ht, hS, rfl, by simp [ticks], by simp [ticks]⟩
  | @step l c c' ev h hs ih =>
      simp only [List.forall_mem_append, List.forall_mem_singleton] at hsteady
      obtain ⟨hsteady, hlast⟩ := hsteady
      have hold := ih hsteady
      have hinv := reachable_inv (Window.reachable h₀ h)
      obtain ⟨hv, hp⟩ := hs.vruntime hinv hold.awake
      rw [hold.sum] at hv
      have hlow : chargedTicks t c ev * c.priority t ≤
          S * (chargedTicks t c ev * c.priority t / S) +
            (S - 1) * if Charges t c ev then 1 else 0 := le_charge hne
      have hhigh : S * (chargedTicks t c ev * c.priority t / S) ≤
          chargedTicks t c ev * c.priority t := Nat.mul_div_le ..
      have hle := hold.le
      have hge := hold.ge
      obtain ⟨hawake, hsum⟩ := hs.steady hinv hlast
      refine ⟨(hawake t).mpr hold.awake, hsum.trans hold.sum,
        hp.trans hold.priority, ?_, ?_⟩
      · rw [hv, ticks_concat, Nat.mul_add, Nat.add_mul]
        rw [hold.priority] at hhigh ⊢
        omega
      · rw [hv, ticks_concat, charges_concat, Nat.mul_add, Nat.add_mul, Nat.mul_add]
        rw [hold.priority] at hlow ⊢
        omega

/-- **Proportional shares.**  In a part of an aligned run, while the same CFS threads are not
blocked, and the sum of the priorities of all CFS threads fits into 32 bits, what two of them are
charged is inversely proportional to their priorities: the ticks times the priority differ by at
most the priority sum times the largest charges before and after, and by less than the priority sum
for each charge. -/
theorem window_share (h₀ : c₀.AlignedReachable) (h : Window c₀ l c)
    (hfit : c₀.kernel.sched.priorities c₀.kernel.sched.cfsThreads ≤ u32Max)
    (hsteady : ∀ p ∈ l, Steady p.1 p.2.2) (ht : c₀.Awake t) (hu : c₀.Awake u)
    (hS : c₀.kernel.sched.priorities c₀.kernel.sched.awakeThreads = S) :
    ticks t l * c₀.priority t ≤ ticks u l * c₀.priority u +
      S * (c₀.largest + c.largest) + (S - 1) * charges t l := by
  have hinv := reachable_inv h₀
  have hsummed := Kernel.reachable_summed (reachable_kernel h₀)
  have hsum : c₀.kernel.sched.runq.prioritySum = S := (hsummed.sum hfit).trans hS
  have hne : S ≠ 0 := by
    have hle := Finset.single_le_sum (f := fun u => (c₀.kernel.sched.runq.entity u).priority)
      (fun _ _ => Nat.zero_le _) (hinv.kernel.sched.mem_awakeThreads.mpr ht)
    have hpos := hsummed.nonzero t ht.1
    rw [Sched.priorities] at hS
    omega
  have hgt := Window.grows h₀ h hsum hne ht hsteady
  have hgu := Window.grows h₀ h hsum hne hu hsteady
  -- the threads are near each other before and after
  have hbefore : S * c₀.vruntime u ≤ S * c₀.vruntime t + S * c₀.largest := by
    rw [← Nat.mul_add]
    exact Nat.mul_le_mul_left S (reachable_fair h₀ hu ht)
  have hafter : S * c.vruntime t ≤ S * c.vruntime u + S * c.largest := by
    rw [← Nat.mul_add]
    exact Nat.mul_le_mul_left S (reachable_fair (Window.reachable h₀ h) hgt.awake hgu.awake)
  have hge := hgt.ge
  have hle := hgu.le
  rw [Nat.mul_add]
  omega

/-! ### Threads that wait -/

/-- A thread that waits keeps its virtual runtime. -/
lemma Window.waits (h₀ : c₀.AlignedReachable) (h : Window c₀ l c)
    (hu : ∀ p ∈ l, p.1.Queued u) : c.vruntime u = c₀.vruntime u := by
  induction h with
  | start h => rw [h]
  | @step l c c' ev h hs ih =>
      simp only [List.forall_mem_append, List.forall_mem_singleton] at hu
      obtain ⟨hu, hlast⟩ := hu
      have hinv := reachable_inv (Window.reachable h₀ h)
      have hready : c.kernel.sched.state u = .ready := ((hinv.kernel.sched.ok u).queued.mp hlast).2
      have hnot : ¬ Charges u c ev := fun hc => by
        have hrun := hc.2.2
        rw [hready] at hrun
        cases hrun
      rw [(hs.vruntime hinv (hinv.kernel.sched.awake_iff.mpr (Or.inl hlast))).1,
        chargedTicks_of_not hnot, Nat.zero_mul, Nat.zero_div, Nat.add_zero, ih hu]

/-- While `u` waits, the thread `t` is charged only until its virtual runtime is beyond that of `u`;
when it is woken it is behind by at most `d` again. -/
structure Overtakes (t u : Tid) (d : ℕ) (l : Steps α) (c : Fairness α) : Prop where
  charges : charges t l ≤ (wakes t l + 1) * (d + 1)
  left : c.Awake t → c.Queued u →
    Fairness.charges t l + (c.vruntime u + 1 - c.vruntime t) ≤ (wakes t l + 1) * (d + 1)

lemma Window.overtakes {d : ℕ} (h₀ : c₀.AlignedReachable) (h : Window c₀ l c)
    (hd : c.largest ≤ d) (hu : ∀ p ∈ l, p.1.Queued u)
    (hraise : ∀ p ∈ l, Charges t p.1 p.2.1 →
      0 < chargedTicks t p.1 p.2.1 * p.1.priority t / p.1.kernel.sched.runq.prioritySum) :
    Overtakes t u d l c := by
  induction h with
  | @start c h =>
      refine ⟨Nat.zero_le _, fun ht hq => ?_⟩
      have hreach : c.AlignedReachable := h ▸ h₀
      have hinv := reachable_inv hreach
      have hnear : c.vruntime u ≤ c.vruntime t + c.largest :=
        reachable_fair hreach (hinv.kernel.sched.awake_iff.mpr (Or.inl hq)) ht
      simp only [Fairness.charges, wakes, List.countP_nil]
      omega
  | @step l c c' ev h hs ih =>
      have hreach := Window.reachable h₀ h
      have hreach' : c'.AlignedReachable := .step hreach hs.step
      have hwait' := Window.waits h₀ (h.step hs) hu
      simp only [List.forall_mem_append, List.forall_mem_singleton] at hu hraise
      obtain ⟨hu, hlast⟩ := hu
      obtain ⟨hraise, hraised⟩ := hraise
      have hwait : c'.vruntime u = c.vruntime u := hwait'.trans (Window.waits h₀ h hu).symm
      have hinv := reachable_inv hreach
      have hold := ih (hs.largest_le.trans hd) hu hraise
      have hsum : (wakes t l + 1 + 1) * (d + 1) = (wakes t l + 1) * (d + 1) + (d + 1) :=
        Nat.succ_mul ..
      have hcharges := hold.charges
      by_cases ht : c.Awake t
      · -- `t` has not been woken; it is charged only as long as it is behind `u`
        have hleft := hold.left ht hlast
        obtain ⟨hv, -⟩ := hs.vruntime hinv ht
        have hwakes : wakes t (l ++ [(c, ev, c')]) = wakes t l := by
          rw [wakes_concat, if_neg fun hn => hn.1 ht]
          rfl
        by_cases hc : Charges t c ev
        · have hbehind : c.vruntime t ≤ c.vruntime u := hinv.fair.behind t hc.2 u hlast
          have hpos := hraised hc
          refine ⟨?_, fun _ _ => ?_⟩ <;> rw [charges_concat, if_pos hc, hwakes] <;> omega
        · rw [chargedTicks_of_not hc, Nat.zero_mul, Nat.zero_div, Nat.add_zero] at hv
          refine ⟨?_, fun _ _ => ?_⟩ <;> rw [charges_concat, if_neg hc, hwakes] <;> omega
      · have hc : ¬ Charges t c ev := fun hc =>
          ht (hinv.kernel.sched.awake_iff.mpr (Or.inr hc.2))
        by_cases ht' : c'.Awake t
        · have hwakes : wakes t (l ++ [(c, ev, c')]) = wakes t l + 1 := by
            rw [wakes_concat, if_pos ⟨ht, ht'⟩]
          refine ⟨?_, fun _ hq => ?_⟩
          · rw [charges_concat, if_neg hc, hwakes]
            omega
          · have hu' : c'.Awake u :=
              (reachable_inv hreach').kernel.sched.awake_iff.mpr (Or.inl hq)
            have hnear : c'.vruntime u ≤ c'.vruntime t + c'.largest :=
              reachable_fair hreach' hu' ht'
            rw [charges_concat, if_neg hc, hwakes]
            omega
        · have hwakes : wakes t (l ++ [(c, ev, c')]) = wakes t l := by
            rw [wakes_concat, if_neg fun hn => ht' hn.2]
            rfl
          refine ⟨?_, fun hw => absurd hw ht'⟩
          rw [charges_concat, if_neg hc, hwakes]
          omega

/-- **No CFS thread starves beside the others.**  In a part of an aligned run, while a thread waits
in the run queue, each other one whose charges are not rounded down to nothing is charged at most
`largest + 1` times, and as often again each time it is woken. -/
theorem window_wait (h₀ : c₀.AlignedReachable) (h : Window c₀ l c) (hu : ∀ p ∈ l, p.1.Queued u)
    (hraise : ∀ p ∈ l, Charges t p.1 p.2.1 →
      0 < chargedTicks t p.1 p.2.1 * p.1.priority t / p.1.kernel.sched.runq.prioritySum) :
    charges t l ≤ (wakes t l + 1) * (c.largest + 1) :=
  (Window.overtakes h₀ h le_rfl hu hraise).charges

/-! ### Two threads that take turns -/

lemma alignedNext_makes (h : c.alignedNext ev = some c') : Makes c ev c' := by
  have hjoin := (alignedNext_step h).2
  unfold alignedNext next at h
  split at h
  · split at h
    · rename_i hfirst
      obtain ⟨k', hk', rfl⟩ := Option.map_eq_some_iff.mp h
      obtain ⟨hen, reply, hrun⟩ := Kernel.next_eq_some.mp hk'
      exact ⟨k', reply, hen, hfirst, hrun, rfl, hjoin⟩
    · cases h
  · cases h

/-- Two threads are created and take turns. -/
def turns : ℕ → List (Event ℕ)
  | 0 => [.spawnCfs 1 10, .spawnCfs 2 30, .start 0, .tick ⟨some 49, some 0⟩ 8,
      .schedule ⟨some 49, some 0⟩]
  | n + 1 => turns n ++ [.tick ⟨some 49, some 0⟩ 8, .schedule ⟨some 49, some 0⟩]

/-- The part of the run between two of the turns. -/
def windowTrial (m n : ℕ) : Option (Fairness ℕ × Steps ℕ × Fairness ℕ) := do
  let c₀ ← trial alignedNext (turns m)
  let r ← Runs.Run.play alignedNext c₀ ((turns n).drop (turns m).length)
  return (c₀, r)

lemma windowTrial_window {m n : ℕ} {c₀ c : Fairness ℕ} {l : Steps ℕ}
    (h : windowTrial m n = some (c₀, l, c)) : c₀.AlignedReachable ∧ Window c₀ l c := by
  simp only [windowTrial, Option.bind_eq_bind, Option.bind_eq_some_iff] at h
  obtain ⟨c₁, htrial, r, hplay, hr⟩ := h
  have hwindow : Window c₁ r.1 r.2 := by
    refine .of_play (fun _ _ _ => alignedNext_makes) ?_ hplay
    rfl
  obtain ⟨rfl, rfl⟩ := Prod.mk.inj (Option.some.inj hr)
  exact ⟨trial_reach (fun _ _ _ => alignedNext_step) htrial, hwindow⟩

/-- In five turns the first thread is charged four times as much as the second one, which has three
times its priority. -/
theorem window_share_turns : ∃ c₀ l c, windowTrial 0 5 = some (c₀, l, c) ∧ ticks 1 l = 200 ∧
    ticks 2 l = 50 ∧ ticks 1 l * c₀.priority 1 ≤
      ticks 2 l * c₀.priority 2 + 40 * (c₀.largest + c.largest) + (40 - 1) * charges 1 l := by
  have htest : (windowTrial 0 5).any (fun r => decide (ticks 1 r.2.1 = 200) &&
      decide (ticks 2 r.2.1 = 50) &&
      decide (r.1.kernel.sched.priorities r.1.kernel.sched.cfsThreads ≤ u32Max) &&
      decide (∀ p ∈ r.2.1, Steady p.1 p.2.2) && decide (r.1.Awake 1) && decide (r.1.Awake 2) &&
      decide (r.1.kernel.sched.priorities r.1.kernel.sched.awakeThreads = 40)) = true := by
    decide +kernel
  obtain ⟨⟨c₀, l, c⟩, hr, htest⟩ := (Option.any_eq_true ..).mp htest
  simp only [Bool.and_eq_true, decide_eq_true_eq] at htest
  obtain ⟨⟨⟨⟨⟨⟨h₁, h₂⟩, hfit⟩, hsteady⟩, ht⟩, hu⟩, hS⟩ := htest
  obtain ⟨hreach, hwindow⟩ := windowTrial_window hr
  exact ⟨c₀, l, c, hr, h₁, h₂, window_share hreach hwindow hfit hsteady ht hu hS⟩

/-- The second thread waits for three turns, in which the first one is charged. -/
theorem window_wait_turns : ∃ c₀ l c, windowTrial 2 5 = some (c₀, l, c) ∧ charges 1 l = 3 ∧
    wakes 1 l = 0 ∧ charges 1 l ≤ (wakes 1 l + 1) * (c.largest + 1) := by
  have htest : (windowTrial 2 5).any (fun r => decide (charges 1 r.2.1 = 3) &&
      decide (wakes 1 r.2.1 = 0) && decide (∀ p ∈ r.2.1, p.1.Queued 2) &&
      decide (∀ p ∈ r.2.1, Charges 1 p.1 p.2.1 → 0 <
        chargedTicks 1 p.1 p.2.1 * p.1.priority 1 / p.1.kernel.sched.runq.prioritySum)) = true := by
    decide +kernel
  obtain ⟨⟨c₀, l, c⟩, hr, htest⟩ := (Option.any_eq_true ..).mp htest
  simp only [Bool.and_eq_true, decide_eq_true_eq] at htest
  obtain ⟨⟨⟨hcharges, hwakes⟩, hu⟩, hraise⟩ := htest
  obtain ⟨hreach, hwindow⟩ := windowTrial_window hr
  exact ⟨c₀, l, c, hr, hcharges, hwakes, window_wait hreach hwindow hu hraise⟩

end Fairness

end Rtsched

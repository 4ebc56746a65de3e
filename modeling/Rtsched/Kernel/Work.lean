import Rtsched.Kernel.CfsSpec
import Mathlib.Algebra.BigOperators.Group.Finset.Basic
import Mathlib.Algebra.Order.BigOperators.Group.Finset

/-!
The CFS threads over serialized runs.

* `Kernel.prompt_work`: **a switch under the CFS timer runs a queued CFS thread**; with an empty run
  queue it runs the idle thread and queues the CFS thread that was running.
* `Kernel.prompt_pick`: **that CFS thread has the least virtual runtime**, the running thread goes
  on unless a queued one has less, and no thread is lost or gained.
* `Kernel.prompt_prioritySum`: **the priority sum is that of the CFS threads that are not blocked**.
-/

namespace Rtsched

open Outcome

variable {α : Type}

/-! ### Work conservation -/

namespace Sched

variable {s s' : Sched} {elapsed : ℕ} {c t : Tid}

/-- A switch with an empty run queue that leaves the running CFS thread puts it there. -/
lemma Switches.requeued (h : s.Inv) (hsw : Switches elapsed s s') (hnil : s.runq.tree = [])
    (hc : s.current = some c) (hkind : s.kind c = .cfs) (hrun : s.state c = .running)
    (hne : s'.current ≠ some c) : s'.runq.tree = [c] := by
  have hmem : ∀ u, u ∈ s'.runq.tree ↔ u = c := by
    intro u
    have hqueued : u ∈ s'.runq.tree ↔ s'.kind u = .cfs ∧ s'.state u = .ready :=
      (hsw.inv.ok u).queued
    rw [hqueued, hsw.kind]
    constructor
    · rintro ⟨hu, hready⟩
      have hawake : s.Awake u := (hsw.awake_iff u).mp ⟨by rwa [hsw.kind], by rw [hready]; rfl⟩
      rcases h.awake_iff.mp hawake with hmem | ⟨-, hrun'⟩
      · rw [hnil] at hmem
        cases hmem
      · exact Option.some.inj ((h.running u hrun').symm.trans hc)
    · rintro rfl
      have hawake : s'.Awake u := (hsw.awake_iff u).mpr ⟨hkind, by rw [hrun]; rfl⟩
      rcases hsw.inv.awake_iff.mp hawake with hmem | ⟨-, hrun'⟩
      · exact ⟨hkind, (hqueued.mp hmem).2⟩
      · exact absurd (hsw.inv.running u hrun') hne
  have hnodup : s'.runq.tree.Nodup := Ordered.Increasing.nodup hsw.inv.tidy.runq
  exact List.perm_singleton.mp ((List.perm_ext_iff_of_nodup hnodup (List.nodup_singleton c)).mpr
    (by simpa using hmem))

end Sched

namespace Kernel

variable {k k' : Kernel α} {reply : Reply α} {port : TimerPort}

/-- **Work conservation.**  A switch that finds the CFS timer selected and a CFS thread queued makes
a CFS thread current.  With an empty run queue it makes the idle thread current, and a CFS thread
that was running becomes the one that is queued. -/
theorem prompt_work (h : k.PromptReachable) (hen : k.Enabled (.schedule port))
    (hnext : k.sched.ktimers.next = some .cfs) (hrun : k.exec (.schedule port) = .ok (k', reply)) :
    (k.sched.runq.tree ≠ [] → ∃ n, k'.sched.current = some n ∧ k'.sched.kind n = .cfs ∧
      k'.sched.idle ≠ some n) ∧
    (k.sched.runq.tree = [] → k'.sched.current = k'.sched.idle ∧
      ∀ c, k.sched.current = some c → k.sched.kind c = .cfs → k.sched.state c = .running →
        k'.sched.runq.tree = [c] ∧ k'.sched.state c = .ready) := by
  have hinv := reachable_inv h.reachable
  have hsw := hinv.switches hen hrun
  refine ⟨fun hne => ?_, fun hnil => ?_⟩
  · obtain ⟨n, hn, hkind, -⟩ := hsw.toCfs hnext hne
    refine ⟨n, hn, by rwa [hsw.kind], fun hidle => ?_⟩
    have hkind' := (hsw.inv.idle n hidle).1
    rw [hsw.kind, hkind] at hkind'
    cases hkind'
  · have hidle : k'.sched.current = k'.sched.idle := by
      rw [hsw.idle]
      refine hsw.toIdle (fun t ht => ?_) fun _ => hnil
      rw [hnext] at ht
      cases ht
    refine ⟨hidle, fun c hc hkind hrunning => ?_⟩
    have hne : k'.sched.current ≠ some c := by
      intro hc'
      have hkind' := (hsw.inv.idle c (hidle.symm.trans hc')).1
      rw [hsw.kind, hkind] at hkind'
      cases hkind'
    have htree := hsw.requeued hinv.sched hnil hc hkind hrunning hne
    have hmem : c ∈ k'.sched.runq.tree := by
      rw [htree]
      exact List.mem_singleton_self c
    exact ⟨htree, ((hsw.inv.ok c).queued.mp hmem).2⟩

/-- The only CFS thread runs when a tick requests a switch. -/
def aloneTrial : Option (Kernel ℕ) := trial serialNext
  [.spawnCfs 1 10, .start 0, .tick ⟨some 99, some 0⟩ 8, .schedule ⟨some 99, some 0⟩,
    .tick ⟨some 99, some 0⟩ 8]

/-- The idle thread takes over from the only CFS thread, which could have run on. -/
theorem alone_goes_idle : ∃ k k', aloneTrial = some k ∧ k.PromptReachable ∧
    k.Enabled (.schedule ⟨some 99, some 0⟩) ∧ k.sched.ktimers.next = some .cfs ∧
    (k.sched.ktimers.entity .cfs).active = true ∧ k.sched.current = some 1 ∧
    k.sched.kind 1 = .cfs ∧ k.sched.state 1 = .running ∧
    k.exec (.schedule ⟨some 99, some 0⟩) = .ok (k', .done) ∧
    k'.sched.current = k'.sched.idle ∧ k'.sched.idle = some 0 ∧ k'.sched.kind 0 = .idle := by
  have htest : aloneTrial.any (fun k => decide (k.Enabled (.schedule ⟨some 99, some 0⟩)) &&
      decide (k.sched.ktimers.next = some .cfs) && (k.sched.ktimers.entity .cfs).active &&
      k.sched.current == some 1 && k.sched.kind 1 == .cfs && k.sched.state 1 == .running &&
      (k.next (.schedule ⟨some 99, some 0⟩)).any fun k' => k'.sched.current == some 0 &&
        k'.sched.idle == some 0 && k'.sched.kind 0 == .idle) = true := by decide +kernel
  obtain ⟨k, hk, htest⟩ := (Option.any_eq_true ..).mp htest
  simp only [Bool.and_eq_true, beq_iff_eq, decide_eq_true_eq] at htest
  obtain ⟨⟨⟨⟨⟨⟨hen, hnext⟩, hactive⟩, hcur⟩, hkind⟩, hstate⟩, hlast⟩ := htest
  obtain ⟨k', hk', hlast⟩ := (Option.any_eq_true ..).mp hlast
  simp only [Bool.and_eq_true, beq_iff_eq] at hlast
  obtain ⟨-, reply, hrun⟩ := next_eq_some.mp hk'
  obtain rfl : reply = .done := by
    obtain ⟨s, -, heq⟩ := bind_eq_ok.mp (hrun : k.lift _ = _)
    exact (Prod.mk.inj (Except.ok.inj heq)).2.symm
  have hreach := trial_reach (fun _ _ _ => serialNext_step) hk
  exact ⟨k, k', hk, SerialReachable.promptReachable hreach, hen, hnext, hactive, hcur, hkind,
    hstate, hrun, hlast.1.1.trans hlast.1.2.symm, hlast.1.2, hlast.2⟩

/-- Two CFS threads are queued when the first tick requests a switch. -/
def queuedTrial : Option (Kernel ℕ) := trial serialNext
  [.spawnCfs 1 10, .spawnCfs 2 10, .start 0, .tick ⟨some 99, some 0⟩ 8]

/-- One of two queued threads runs next, and a thread that is alone goes back to the queue. -/
theorem prompt_work_turns :
    (∃ k k', queuedTrial = some k ∧ k.sched.runq.tree = [1, 2] ∧
      k.exec (.schedule ⟨some 99, some 0⟩) = .ok (k', .done) ∧
      ∃ n, k'.sched.current = some n ∧ k'.sched.kind n = .cfs ∧ k'.sched.idle ≠ some n) ∧
    ∃ k k', aloneTrial = some k ∧ k.exec (.schedule ⟨some 99, some 0⟩) = .ok (k', .done) ∧
      k'.sched.current = k'.sched.idle ∧ k'.sched.runq.tree = [1] := by
  constructor
  · have htest : queuedTrial.any (fun k => decide (k.Enabled (.schedule ⟨some 99, some 0⟩)) &&
        decide (k.sched.ktimers.next = some .cfs) && k.sched.runq.tree == [1, 2] &&
        (k.fault (.schedule ⟨some 99, some 0⟩)).isNone) = true := by decide +kernel
    obtain ⟨k, hk, htest⟩ := (Option.any_eq_true ..).mp htest
    simp only [Bool.and_eq_true, beq_iff_eq, decide_eq_true_eq] at htest
    obtain ⟨⟨⟨hen, hnext⟩, htree⟩, hok⟩ := htest
    obtain ⟨k', hrun⟩ := exists_of_fault_isNone hok
    have hreach := trial_reach (fun _ _ _ => serialNext_step) hk
    exact ⟨k, k', hk, htree, hrun, (prompt_work (SerialReachable.promptReachable hreach) hen hnext
      hrun).1 (by rw [htree]; decide)⟩
  · have htest : aloneTrial.any (fun k => decide (k.Enabled (.schedule ⟨some 99, some 0⟩)) &&
        decide (k.sched.ktimers.next = some .cfs) && k.sched.runq.tree == [] &&
        k.sched.current == some 1 && k.sched.kind 1 == .cfs && k.sched.state 1 == .running &&
        (k.fault (.schedule ⟨some 99, some 0⟩)).isNone) = true := by decide +kernel
    obtain ⟨k, hk, htest⟩ := (Option.any_eq_true ..).mp htest
    simp only [Bool.and_eq_true, beq_iff_eq, decide_eq_true_eq] at htest
    obtain ⟨⟨⟨⟨⟨⟨hen, hnext⟩, hnil⟩, hcur⟩, hkind⟩, hstate⟩, hok⟩ := htest
    obtain ⟨k', hrun⟩ := exists_of_fault_isNone hok
    have hreach := trial_reach (fun _ _ _ => serialNext_step) hk
    obtain ⟨hidle, hqueue⟩ :=
      (prompt_work (SerialReachable.promptReachable hreach) hen hnext hrun).2 hnil
    exact ⟨k, k', hk, hrun, hidle, (hqueue 1 hcur hkind hstate).1⟩

end Kernel

/-! ### The choice among the CFS threads -/

/-- The thread is in the run queue, or it is the current thread and a CFS thread that is not
blocked. -/
def Sched.QueuedOrCurrent (s : Sched) (t : Tid) : Prop :=
  t ∈ s.runq.tree ∨ (s.current = some t ∧ s.Awake t)

/-- These are the CFS threads that are not blocked. -/
lemma Sched.Inv.queuedOrCurrent_iff {s : Sched} (h : s.Inv) {t : Tid} :
    s.QueuedOrCurrent t ↔ s.Awake t := by
  constructor
  · rintro (hmem | ⟨-, hawake⟩)
    · exact h.awake_iff.mpr (Or.inl hmem)
    · exact hawake
  · intro hawake
    rcases h.awake_iff.mp hawake with hmem | ⟨-, hrun⟩
    · exact Or.inl hmem
    · exact Or.inr ⟨h.running t hrun, hawake⟩

namespace Kernel

variable {k k' : Kernel α} {reply : Reply α} {port : TimerPort}

/-- In a serialized run a switch fails only in the accounting. -/
lemma schedule_fault (h : k.PromptReachable) (hen : k.Enabled (.schedule port)) {f : Fault}
    (hrun : k.exec (.schedule port) = .error f) : f = .arithmetic := by
  have hinv := reachable_inv h.reachable
  rcases (exec_spec hinv.sched hinv.rings hen).error hrun with hf | ⟨⟨c, hc, -, hready⟩, -⟩
  · exact hf
  · exact absurd hready ((promptReachable_prompt h).current c hc)

/-- **The CFS pick.**  A switch that finds the CFS timer selected and a thread queued fails only in
the accounting.  Otherwise it makes a CFS thread current whose virtual runtime is at most that of
every thread in the run queue; a running CFS thread stays current unless a queued thread has less
virtual runtime after the charge; and the CFS threads that are queued or current and not blocked are
the same as before. -/
theorem prompt_pick (h : k.PromptReachable) (hen : k.Enabled (.schedule port))
    (hnext : k.sched.ktimers.next = some .cfs) (hne : k.sched.runq.tree ≠ []) :
    (∀ f, k.exec (.schedule port) = .error f → f = .arithmetic) ∧
    ∀ k' reply, k.exec (.schedule port) = .ok (k', reply) →
      (∃ n, k'.sched.current = some n ∧ k'.sched.kind n = .cfs ∧ ∀ u ∈ k'.sched.runq.tree,
        (k'.sched.runq.entity n).vruntime ≤ (k'.sched.runq.entity u).vruntime) ∧
      (∀ c, k.sched.current = some c → k.sched.kind c = .cfs → k.sched.state c = .running →
        (∀ u ∈ k.sched.runq.tree,
          (k'.sched.runq.entity c).vruntime ≤ (k'.sched.runq.entity u).vruntime) →
        k'.sched.current = some c) ∧
      ∀ t, k'.sched.QueuedOrCurrent t ↔ k.sched.QueuedOrCurrent t := by
  have hinv := reachable_inv h.reachable
  refine ⟨fun f hrun => schedule_fault h hen hrun, fun k' reply hrun => ?_⟩
  have hsw := hinv.switches hen hrun
  refine ⟨?_, fun c hc hkind hrunning hleast => ?_, fun t => ?_⟩
  · obtain ⟨n, hn, hkind, hle⟩ := hsw.toCfs hnext hne
    exact ⟨n, hn, by rwa [hsw.kind], hle⟩
  · refine (hsw.kept hnext hne c hc hkind (by rw [hrunning]; rfl)).resolve_right ?_
    rintro ⟨u, hu, hlt⟩
    exact absurd hlt (not_lt.mpr (hleast u hu))
  · rw [hsw.inv.queuedOrCurrent_iff, hinv.sched.queuedOrCurrent_iff, hsw.awake_iff]

/-- One CFS thread has run for 100 ticks while another was queued. -/
def pairTrial : Option (Kernel ℕ) := trial serialNext
  [.spawnCfs 1 10, .spawnCfs 2 10, .start 0, .tick ⟨some 99, some 0⟩ 8,
    .schedule ⟨some 99, some 0⟩, .tick ⟨some 99, some 0⟩ 8]

theorem prompt_pick_pair : ∃ k k', pairTrial = some k ∧ k.sched.current = some 1 ∧
    k.exec (.schedule ⟨some 99, some 0⟩) = .ok (k', .done) ∧
    (∃ n, k'.sched.current = some n ∧ k'.sched.kind n = .cfs) ∧ k'.sched.QueuedOrCurrent 1 := by
  have htest : pairTrial.any (fun k => decide (k.Enabled (.schedule ⟨some 99, some 0⟩)) &&
      decide (k.sched.ktimers.next = some .cfs) && k.sched.runq.tree == [2] &&
      k.sched.current == some 1 && k.sched.kind 1 == .cfs && k.sched.state 1 == .running &&
      (k.fault (.schedule ⟨some 99, some 0⟩)).isNone) = true := by decide +kernel
  obtain ⟨k, hk, htest⟩ := (Option.any_eq_true ..).mp htest
  simp only [Bool.and_eq_true, beq_iff_eq, decide_eq_true_eq] at htest
  obtain ⟨⟨⟨⟨⟨⟨hen, hnext⟩, htree⟩, hcur⟩, hkind⟩, hstate⟩, hok⟩ := htest
  obtain ⟨k', hrun⟩ := exists_of_fault_isNone hok
  have hreach := SerialReachable.promptReachable (trial_reach (fun _ _ _ => serialNext_step) hk)
  obtain ⟨⟨n, hn, hkind', -⟩, -, hsame⟩ :=
    (prompt_pick hreach hen hnext (by rw [htree]; simp)).2 k' .done hrun
  refine ⟨k, k', hk, hcur, hrun, ⟨n, hn, hkind'⟩, (hsame 1).mpr (Or.inr ⟨hcur, hkind, ?_⟩)⟩
  rw [hstate]
  rfl

end Kernel

/-! ### The priority sum -/

namespace Sched

variable {s s' : Sched} {t : Tid}

/-- The CFS threads that have been created. -/
def cfsThreads (s : Sched) : Finset Tid := s.spawned.toFinset.filter fun t => s.kind t = .cfs

/-- The CFS threads that are not blocked. -/
def awakeThreads (s : Sched) : Finset Tid := s.spawned.toFinset.filter s.Awake

/-- The sum of the priorities of some threads. -/
def priorities (s : Sched) (T : Finset Tid) : ℕ := ∑ t ∈ T, (s.runq.entity t).priority

/-- The priority sum is right as long as the priorities of all CFS threads fit into it. -/
structure Summed (s : Sched) : Prop where
  nonzero : ∀ t, s.kind t = .cfs → (s.runq.entity t).priority ≠ 0
  sum : s.priorities s.cfsThreads ≤ u32Max → s.runq.prioritySum = s.priorities s.awakeThreads

lemma Inv.mem_cfsThreads (h : s.Inv) : t ∈ s.cfsThreads ↔ s.kind t = .cfs := by
  rw [cfsThreads, Finset.mem_filter, List.mem_toFinset]
  exact ⟨fun ht => ht.2, fun ht => ⟨h.mem_spawned (by rw [ht]; simp), ht⟩⟩

lemma Inv.mem_awakeThreads (h : s.Inv) : t ∈ s.awakeThreads ↔ s.Awake t := by
  rw [awakeThreads, Finset.mem_filter, List.mem_toFinset]
  exact ⟨fun ht => ht.2, fun ht => ⟨h.mem_spawned (by rw [ht.1]; simp), ht⟩⟩

lemma Inv.cfsThreads_eq (h : s.Inv) (h' : s'.Inv)
    (hkind : ∀ u, s'.kind u = .cfs ↔ s.kind u = .cfs) : s'.cfsThreads = s.cfsThreads := by
  ext u
  rw [h'.mem_cfsThreads, h.mem_cfsThreads, hkind]

lemma Inv.awakeThreads_eq (h : s.Inv) (h' : s'.Inv) (hawake : ∀ u, s'.Awake u ↔ s.Awake u) :
    s'.awakeThreads = s.awakeThreads := by
  ext u
  rw [h'.mem_awakeThreads, h.mem_awakeThreads, hawake]

/-- The CFS threads that are not blocked are among all of them. -/
lemma Inv.awakeThreads_subset (h : s.Inv) : s.awakeThreads ⊆ s.cfsThreads := fun _ hu =>
  h.mem_cfsThreads.mpr (h.mem_awakeThreads.mp hu).1

lemma priorities_congr (hp : ∀ u, (s'.runq.entity u).priority = (s.runq.entity u).priority)
    (T : Finset Tid) : s'.priorities T = s.priorities T := Finset.sum_congr rfl fun u _ => hp u

lemma priorities_mono {T T' : Finset Tid} (h : T ⊆ T') : s.priorities T ≤ s.priorities T' :=
  Finset.sum_le_sum_of_subset h

/-- The priorities of threads that join one after the other. -/
lemma prioritySum_foldlM {r r' : RunQueue} {ts : List Tid} (hnodup : ts.Nodup) (h : r.Ordered)
    (hnew : ∀ t ∈ ts, t ∉ r.tree) (hrun : ts.foldlM RunQueue.enqueueFromWaitq r = .ok r') :
    (∀ u, (r'.entity u).priority = (r.entity u).priority) ∧
      (r.prioritySum + (ts.map fun t => (r.entity t).priority).sum ≤ u32Max →
        r'.prioritySum = r.prioritySum + (ts.map fun t => (r.entity t).priority).sum) := by
  have hrule := RunQueue.foldlM_enqueueFromWaitq
    (I := fun r₁ rest => (∀ u, (r₁.entity u).priority = (r.entity u).priority) ∧
      (r.prioritySum + (ts.map fun t => (r.entity t).priority).sum ≤ u32Max →
        r₁.prioritySum + (rest.map fun t => (r.entity t).priority).sum =
          r.prioritySum + (ts.map fun t => (r.entity t).priority).sum))
    (fun r₁ r₂ t rest _ _ hI hjoin hsum => ?_) ts hnodup h hnew ⟨fun _ => rfl, fun _ => rfl⟩ hrun
  · simpa using hrule
  · refine ⟨fun u => (hjoin.priority u).trans (hI.1 u), fun hle => ?_⟩
    have hold := hI.2 hle
    rw [List.map_cons, List.sum_cons] at hold
    rw [hsum, hI.1 t, satAdd32]
    omega

/-- A step that changes neither the CFS threads nor their priorities. -/
lemma Summed.congr (hs : s.Summed) (h : s.Inv) (h' : s'.Inv)
    (hkind : ∀ u, s'.kind u = .cfs ↔ s.kind u = .cfs) (hawake : ∀ u, s'.Awake u ↔ s.Awake u)
    (hprio : ∀ u, (s'.runq.entity u).priority = (s.runq.entity u).priority)
    (hsum : s'.runq.prioritySum = s.runq.prioritySum) : s'.Summed := by
  refine ⟨fun u hu => ?_, fun hle => ?_⟩
  · rw [hprio]
    exact hs.nonzero u ((hkind u).mp hu)
  · rw [h.cfsThreads_eq h' hkind, priorities_congr hprio] at hle
    rw [hsum, h.awakeThreads_eq h' hawake, priorities_congr hprio]
    exact hs.sum hle

/-- A thread blocks. -/
lemma Summed.drops (hs : s.Summed) (h : s.Inv) (h' : s'.Inv) (ht : s.Awake t)
    (hrunq : s'.runq = s.runq.leave t) (hkind : s'.kind = s.kind)
    (hawake : ∀ u, s'.Awake u ↔ s.Awake u ∧ u ≠ t) : s'.Summed := by
  have hprio : ∀ u, (s'.runq.entity u).priority = (s.runq.entity u).priority := by
    intro u
    rw [hrunq]
    rfl
  refine ⟨fun u hu => ?_, fun hle => ?_⟩
  · rw [hprio]
    exact hs.nonzero u (by rwa [hkind] at hu)
  · rw [h.cfsThreads_eq h' (by simp [hkind]), priorities_congr hprio] at hle
    have herase : s'.awakeThreads = s.awakeThreads.erase t := by
      ext u
      rw [h'.mem_awakeThreads, hawake, Finset.mem_erase, h.mem_awakeThreads, and_comm]
    have hsum : (s.runq.entity t).priority + s.priorities (s.awakeThreads.erase t) =
        s.priorities s.awakeThreads :=
      Finset.add_sum_erase _ (fun u => (s.runq.entity u).priority) (h.mem_awakeThreads.mpr ht)
    rw [herase, priorities_congr hprio, hrunq]
    change s.runq.prioritySum - (s.runq.entity t).priority = _
    rw [hs.sum hle]
    omega

/-- Blocked threads join. -/
lemma Summed.joins (hs : s.Summed) (h : s.Inv) (h' : s'.Inv) {ts : List Tid} (hnodup : ts.Nodup)
    (hts : ∀ u ∈ ts, s.kind u = .cfs ∧ ¬ s.Awake u)
    (hrunq : ts.foldlM RunQueue.enqueueFromWaitq s.runq = .ok s'.runq) (hkind : s'.kind = s.kind)
    (hawake : ∀ u, s'.Awake u ↔ s.Awake u ∨ u ∈ ts) : s'.Summed := by
  have hnew : ∀ t ∈ ts, t ∉ s.runq.tree := fun t ht hmem =>
    (hts t ht).2 (h.awake_iff.mpr (Or.inl hmem))
  obtain ⟨hprio, hadd⟩ := prioritySum_foldlM hnodup h.tidy.runq hnew hrunq
  refine ⟨fun u hu => ?_, fun hle => ?_⟩
  · rw [hprio]
    exact hs.nonzero u (by rwa [hkind] at hu)
  · rw [priorities_congr hprio, h.cfsThreads_eq h' (by simp [hkind])] at hle
    have hunion : s'.awakeThreads = s.awakeThreads ∪ ts.toFinset := by
      ext u
      rw [h'.mem_awakeThreads, hawake, Finset.mem_union, h.mem_awakeThreads, List.mem_toFinset]
    have hdisj : Disjoint s.awakeThreads ts.toFinset := by
      rw [Finset.disjoint_left]
      exact fun u hu hu' => (hts u (List.mem_toFinset.mp hu')).2 (h.mem_awakeThreads.mp hu)
    have hsum : s.priorities (s.awakeThreads ∪ ts.toFinset) =
        s.priorities s.awakeThreads + (ts.map fun t => (s.runq.entity t).priority).sum := by
      rw [priorities, Finset.sum_union hdisj, List.sum_toFinset _ hnodup]
      rfl
    have hsub : s.priorities (s.awakeThreads ∪ ts.toFinset) ≤ s.priorities s.cfsThreads := by
      refine priorities_mono (Finset.union_subset h.awakeThreads_subset fun u hu => ?_)
      exact h.mem_cfsThreads.mpr (hts u (List.mem_toFinset.mp hu)).1
    have hold := hs.sum hle
    rw [hunion, priorities_congr hprio, hsum, ← hold]
    exact hadd (by omega)

/-- The priorities once a thread is created. -/
lemma priority_spawned (h : s.Inv) {priority : ℕ} (ht : t ∉ s.spawned)
    (hrunq : (s.runq.setEntity t ⟨0, 0, priority⟩).enqueueThread t = .ok s'.runq) :
    (s'.runq.entity t).priority = priority ∧
      (∀ u ≠ t, (s'.runq.entity u).priority = (s.runq.entity u).priority) ∧
      s'.runq.prioritySum = s.runq.prioritySum + priority := by
  have hnot : t ∉ s.runq.tree := fun hmem => h.not_awake_of_fresh ht (h.awake_iff.mpr (Or.inl hmem))
  obtain ⟨hjoin, hsum⟩ := (RunQueue.enqueueThread_spec (h.tidy.runq.setEntity hnot
    ⟨0, 0, priority⟩) hnot).value hrunq
  refine ⟨?_, fun u hu => ?_, ?_⟩
  · rw [hjoin.priority, RunQueue.setEntity_self]
  · rw [hjoin.priority, RunQueue.setEntity_of_ne _ hu]
  · rw [hsum, RunQueue.setEntity_self]
    rfl

/-- The sum over a set of threads once another one is created. -/
lemma priorities_insert (hprio : ∀ u ≠ t, (s'.runq.entity u).priority = (s.runq.entity u).priority)
    {T : Finset Tid} (hT : t ∉ T) :
    s'.priorities (insert t T) = (s'.runq.entity t).priority + s.priorities T := by
  rw [priorities, Finset.sum_insert hT]
  refine congrArg _ (Finset.sum_congr rfl fun u hu => hprio u ?_)
  rintro rfl
  exact hT hu

/-- The CFS threads once one is created. -/
lemma Inv.cfsThreads_insert (h : s.Inv) (h' : s'.Inv)
    (hkind : ∀ u, s'.kind u = .cfs ↔ s.kind u = .cfs ∨ u = t) :
    s'.cfsThreads = insert t s.cfsThreads := by
  ext u
  rw [h'.mem_cfsThreads, hkind, Finset.mem_insert, h.mem_cfsThreads, or_comm]

lemma Inv.notMem_cfsThreads (h : s.Inv) (ht : t ∉ s.spawned) : t ∉ s.cfsThreads := fun hmem => by
  have hkind := h.mem_cfsThreads.mp hmem
  rw [(h.fresh t ht).1] at hkind
  cases hkind

/-- A thread is created. -/
lemma Summed.spawns (hs : s.Summed) (h : s.Inv) (h' : s'.Inv) {priority : ℕ} (ht : t ∉ s.spawned)
    (hp : priority ≠ 0)
    (hrunq : (s.runq.setEntity t ⟨0, 0, priority⟩).enqueueThread t = .ok s'.runq)
    (hkind : ∀ u, s'.kind u = .cfs ↔ s.kind u = .cfs ∨ u = t)
    (hawake : ∀ u, s'.Awake u ↔ s.Awake u ∨ u = t) : s'.Summed := by
  obtain ⟨hself, hother, hsum⟩ := priority_spawned h ht hrunq
  have hnotc := h.notMem_cfsThreads ht
  refine ⟨fun u hu => ?_, fun hle => ?_⟩
  · by_cases hut : u = t
    · rw [hut, hself]
      exact hp
    · rw [hother u hut]
      exact hs.nonzero u (((hkind u).mp hu).resolve_right hut)
  · have hnota : t ∉ s.awakeThreads := fun hmem => hnotc (h.awakeThreads_subset hmem)
    have hins : s'.awakeThreads = insert t s.awakeThreads := by
      ext u
      rw [h'.mem_awakeThreads, hawake, Finset.mem_insert, h.mem_awakeThreads, or_comm]
    rw [h.cfsThreads_insert h' hkind, priorities_insert hother hnotc] at hle
    rw [hins, priorities_insert hother hnota, hself, hsum, hs.sum (by omega)]
    exact Nat.add_comm ..

/-- **Every action keeps the priority sum.** -/
theorem Act.summed {l : Label} (h : s.Inv) (ha : Act l s s') (hs : s.Summed) : s'.Summed := by
  have h' := ha.inv h
  cases ha.cfsAct h with
  | same hrunq hkind hawake _ =>
      exact hs.congr h h' hkind hawake (fun _ => by rw [hrunq]) (by rw [hrunq])
  | drops ht hrunq hkind hawake _ => exact hs.drops h h' ht hrunq hkind hawake
  | joins hnodup hts hrunq hkind hawake _ => exact hs.joins h h' hnodup hts hrunq hkind hawake
  | switches _ hsw =>
      obtain ⟨hsum, hprio⟩ := hsw.priority
      exact hs.congr h h' (fun u => by rw [hsw.kind]) hsw.awake_iff hprio hsum
  | spawns ht hp hrunq hkind hawake _ => exact hs.spawns h h' ht hp hrunq hkind hawake

lemma Path.summed {ls : List Label} (h : s.Inv) (hp : Path ls s s') (hs : s.Summed) :
    s'.Summed := by
  induction hp with
  | nil => exact hs
  | cons ha _ ih => exact ih (ha.inv h) (ha.summed h hs)

end Sched

namespace Kernel

variable {k : Kernel α}

lemma Initial.summed (h : k.Initial) : k.sched.Summed := by
  obtain ⟨layout, periodTicks, execTicks, hboot⟩ := h.boot
  obtain ⟨hinv, -, hsp, -, -, -, -, hrunq⟩ := Sched.boot_base hboot
  refine ⟨fun t ht => ?_, fun _ => ?_⟩
  · rw [(hinv.fresh t (by rw [hsp]; simp)).1] at ht
    cases ht
  · rw [hrunq, Sched.awakeThreads, hsp]
    rfl

lemma reachable_summed (h : k.Reachable) : k.sched.Summed := by
  induction h with
  | start h => exact h.summed
  | step hr hs ih =>
      obtain ⟨ev, reply, hen, hrun⟩ := hs
      have hinv := reachable_inv hr
      obtain ⟨ls, hpath, -⟩ := (hinv.does hen hrun).path
      exact hpath.summed hinv.sched ih

/-- **The priority sum.**  While the priorities of all CFS threads fit into 32 bits, the sum is that
of the CFS threads that are queued or current and not blocked.  So waking blocked threads, however
many at once, saturates no addition; blocking a thread saturates no subtraction; creating a thread
whose priority still fits overflows nothing; and the sum is not 0 when a CFS thread runs. -/
theorem prompt_prioritySum (h : k.PromptReachable)
    (hle : k.sched.priorities k.sched.cfsThreads ≤ u32Max) :
    k.sched.runq.prioritySum = k.sched.priorities k.sched.awakeThreads ∧
    (∀ t, t ∈ k.sched.awakeThreads ↔ t ∈ k.sched.runq.tree ∨
      (k.sched.current = some t ∧ k.sched.kind t = .cfs ∧ (k.sched.state t).isBlocked = false)) ∧
    (∀ T ⊆ k.sched.cfsThreads \ k.sched.awakeThreads,
      satAdd32 k.sched.runq.prioritySum (k.sched.priorities T) =
        k.sched.runq.prioritySum + k.sched.priorities T) ∧
    (∀ t ∈ k.sched.awakeThreads, (k.sched.runq.entity t).priority ≤ k.sched.runq.prioritySum) ∧
    (∀ priority, k.sched.priorities k.sched.cfsThreads + priority ≤ u32Max →
      k.sched.runq.prioritySum + priority ≤ u32Max) ∧
    (∀ t, k.sched.kind t = .cfs → k.sched.state t = .running → k.sched.runq.prioritySum ≠ 0) := by
  have hinv := (reachable_inv h.reachable).sched
  have hs := reachable_summed h.reachable
  have hsum := hs.sum hle
  have hself : ∀ t ∈ k.sched.awakeThreads,
      (k.sched.runq.entity t).priority ≤ k.sched.runq.prioritySum := by
    intro t ht
    rw [hsum]
    exact Finset.single_le_sum (f := fun u => (k.sched.runq.entity u).priority)
      (fun _ _ => Nat.zero_le _) ht
  have hmono := Sched.priorities_mono (s := k.sched) hinv.awakeThreads_subset
  refine ⟨hsum, fun t => ?_, fun T hT => ?_, hself, fun priority hp => ?_, fun t hkind hrun => ?_⟩
  · rw [hinv.mem_awakeThreads]
    constructor
    · intro ha
      rcases hinv.awake_iff.mp ha with hmem | ⟨-, hrun⟩
      · exact Or.inl hmem
      · exact Or.inr ⟨hinv.running t hrun, ha⟩
    · rintro (hmem | ⟨-, ha⟩)
      · exact hinv.awake_iff.mpr (Or.inl hmem)
      · exact ha
  · -- the blocked threads and those that are not are both within the total
    have hunion : k.sched.priorities (k.sched.awakeThreads ∪ T) =
        k.sched.priorities k.sched.awakeThreads + k.sched.priorities T :=
      Finset.sum_union (Finset.disjoint_sdiff.mono_right hT)
    have hsub : k.sched.awakeThreads ∪ T ⊆ k.sched.cfsThreads :=
      Finset.union_subset hinv.awakeThreads_subset (hT.trans Finset.sdiff_subset)
    have htotal := Sched.priorities_mono (s := k.sched) hsub
    rw [satAdd32]
    omega
  · omega
  · have hpos := hself t (hinv.mem_awakeThreads.mpr ⟨hkind, by rw [hrun]; rfl⟩)
    have hne := hs.nonzero t hkind
    omega

/-- Of two CFS threads one runs and goes to sleep. -/
def sleeperTrial : Option (Kernel ℕ) := trial serialNext
  [.spawnCfs 1 10, .spawnCfs 2 30, .start 0, .tick ⟨some 99, some 0⟩ 8,
    .schedule ⟨some 99, some 0⟩, .msleepyi ⟨some 399, some 349⟩ 1 100]

theorem prompt_prioritySum_sleeper : ∃ k, sleeperTrial = some k ∧
    k.sched.priorities k.sched.cfsThreads = 40 ∧ k.sched.awakeThreads = {2} ∧
    k.sched.runq.prioritySum = k.sched.priorities k.sched.awakeThreads := by
  have htest : sleeperTrial.any (fun k =>
      decide (k.sched.priorities k.sched.cfsThreads = 40) &&
      decide (k.sched.awakeThreads = {2})) = true := by decide +kernel
  obtain ⟨k, hk, htest⟩ := (Option.any_eq_true ..).mp htest
  simp only [Bool.and_eq_true, decide_eq_true_eq] at htest
  have hreach := trial_reach (fun _ _ _ => serialNext_step) hk
  exact ⟨k, hk, htest.1, htest.2, (prompt_prioritySum (SerialReachable.promptReachable hreach)
    (by rw [htest.1]; decide)).1⟩

end Kernel

end Rtsched

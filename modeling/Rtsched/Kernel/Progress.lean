import Rtsched.Kernel.Atomic
import Rtsched.Kernel.Dispatch
import Rtsched.Kernel.Misses
import Rtsched.Kernel.Overflow
import Rtsched.Kernel.Serial
import Rtsched.Kernel.Sleep

/-!
The kernel does not crash.

Failed assertions, nodes that are linked twice, overflows, index errors and endless loops are faults
of the model.  Each kind of fault is excluded where its invariant lives; here they come together.

* `Sched.Timed`: the timers have a period and deadlines of 32 bits that are not zero.
* `Sched.tick_ends`: **then a tick ends**.
* `prompts`: the serialized runs with such timers; `Kernel.runs_on`: **in such a run every step
  ends, and the only panic is a deadline miss while a runtime is not zero or an RT thread is
  blocked**.
-/

namespace Rtsched

open Outcome

variable {α : Type}

/-- A timing whose counts have 32 bits. -/
structure RtTiming.Fits (timing : RtTiming) : Prop where
  period : timing.periodTicks ≤ u32Max
  deadline : timing.relativeDeadlineTicks ≤ u32Max

instance : DecidablePred RtTiming.Fits := fun timing =>
  decidable_of_iff (timing.periodTicks ≤ u32Max ∧ timing.relativeDeadlineTicks ≤ u32Max)
    ⟨fun h => ⟨h.1, h.2⟩, fun h => ⟨h.1, h.2⟩⟩

namespace Sched

variable {s s' : Sched} {l : Label} {k : Timer}

/-! ### The timings of the timers -/

/-- The timings fit, and the period of the CFS timer and the relative deadlines of the RT threads
are not zero. -/
structure Timed (s : Sched) : Prop where
  fits : ∀ k, (s.ktimers.entity k).timing.Fits
  cfs : 0 < (s.ktimers.entity .cfs).periodTicks
  rt : ∀ t, s.kind t = .rt → 0 < (s.ktimers.entity (.rt t)).relativeDeadlineTicks

/-- Only a new RT thread brings a timing. -/
lemma Act.timing_eq (ha : Act l s s') (hl : ∀ t, l ≠ .spawns t .rt) :
    (s'.ktimers.entity k).timing = (s.ktimers.entity k).timing := by
  by_cases hsp : ∃ t kind, l = .spawns t kind
  · obtain ⟨t, kind, rfl⟩ := hsp
    cases ha with
    | spawns _ _ hk _ _ =>
        rcases hk with heq | ⟨_, rfl, -, -⟩
        · rw [heq]
        · exact absurd rfl (hl t)
  · exact ha.timing fun t kind heq => absurd ⟨t, kind, heq⟩ hsp

/-- Without new RT threads the timings stay as they are. -/
lemma Path.timed {ls : List Label} (h : s.Inv) (hp : Path ls s s')
    (hls : ∀ t, .spawns t .rt ∉ ls) (ht : s.Timed) : s'.Timed := by
  induction hp with
  | nil => exact ht
  | @cons s s₁ s₂ l ls ha _ ih =>
      have hl : ∀ t, l ≠ .spawns t .rt := fun t heq => hls t (heq ▸ List.mem_cons_self)
      have htiming : ∀ k, (s₁.ktimers.entity k).timing = (s.ktimers.entity k).timing :=
        fun k => ha.timing_eq hl
      refine ih (ha.inv h) (fun t hmem => hls t (List.mem_cons_of_mem _ hmem))
        ⟨fun k => htiming k ▸ ht.fits k, ?_, fun t hrt => ?_⟩
      · rw [KTimerEntity.periodTicks, htiming]
        exact ht.cfs
      · rw [KTimerEntity.relativeDeadlineTicks, htiming]
        exact ht.rt t ((ha.kind_rt h hrt).resolve_right (hl t))

/-- A new RT thread has the timing it has been created with. -/
lemma spawnRt_timed (h : s.Base) {t : Tid} (ht : t ∉ s.spawned) {timing : RtTiming}
    (hfits : timing.Fits) (hpos : 0 < timing.relativeDeadlineTicks) (htimed : s.Timed)
    (hrun : s.spawnRt t timing = .ok s') : s'.Timed := by
  obtain ⟨hsp, hset, -, -⟩ := (spawnRt_spec h ht timing).value hrun
  have hinit : (s.initRtThread t timing).ktimers.entity (.rt t) =
      .newWithTiming timing.relativeDeadlineTicks timing := Function.update_self ..
  have hself : (s'.ktimers.entity (.rt t)).timing = timing := by
    rw [hset.frame.timing, hinit]
    rfl
  have hother : ∀ k, k ≠ .rt t →
      (s'.ktimers.entity k).timing = (s.ktimers.entity k).timing := by
    intro k hk
    rw [hset.frame.timing, (initRtThread_same s t timing hk).entity]
  refine ⟨fun k => ?_, ?_, fun u hu => ?_⟩
  · by_cases hk : k = .rt t
    · rw [hk, hself]
      exact hfits
    · rw [hother k hk]
      exact htimed.fits k
  · rw [KTimerEntity.periodTicks, hother .cfs (by simp)]
    exact htimed.cfs
  · by_cases hut : u = t
    · rw [hut, KTimerEntity.relativeDeadlineTicks, hself]
      exact hpos
    · rw [KTimerEntity.relativeDeadlineTicks, hother (.rt u) (by simpa using hut)]
      refine htimed.rt u ?_
      rwa [kind_of_place hsp.place, if_neg hut] at hu

/-- The timings after `init_ktimer_queue` and `init_cfs`. -/
lemma boot_timing {layout : Layout} {periodTicks execTicks : ℕ}
    (hboot : boot layout periodTicks execTicks = .ok s) (k : Timer) :
    (s.ktimers.entity k).timing =
      if k = .cfs then ⟨periodTicks, execTicks, execTicks⟩ else ⟨0, 0, 0⟩ := by
  have h₀ : (newKtimers layout).Wf := by
    refine ⟨List.Pairwise.nil, List.Pairwise.nil, ?_, ?_, ?_, Nat.zero_le _⟩
    all_goals simp [newKtimers]
  have hnone : ∀ k, ¬ (newKtimers layout).Linked k := by simp [newKtimers, KTimers.Linked]
  obtain ⟨q₁, hins, h₁⟩ := KTimers.insert_spec h₀ (hnone .wait) (a := false) fun _ => rfl
  have hcfs : ¬ q₁.Linked .cfs := fun hl => hnone .cfs ((h₁.frame.linked .cfs (by simp)).mp hl)
  have h₂ : (q₁.setEntity .cfs (cfsEntity periodTicks execTicks)).Wf :=
    h₁.wf.edit hcfs rfl rfl rfl (fun j hj => Function.update_of_ne hj ..) h₁.wf.now_le
  rw [boot, KTimers.enqueueInactive, hins, ok_bind, bind_eq_ok] at hboot
  obtain ⟨q, hq, hs⟩ := hboot
  obtain ⟨hset, -⟩ := (KTimers.enqueueKtimer_spec h₂ hcfs (by simp)).value hq
  obtain rfl := Except.ok.inj hs
  change (q.entity k).timing = _
  rw [hset.frame.timing]
  change (Function.update q₁.entity .cfs (cfsEntity periodTicks execTicks) k).timing = _
  split
  · rename_i hk
    rw [hk, Function.update_self]
    rfl
  · rename_i hk
    rw [Function.update_of_ne hk, h₁.frame.timing]
    rfl

/-- The timings of a system whose CFS period is not zero. -/
lemma boot_timed {layout : Layout} {periodTicks execTicks : ℕ}
    (hboot : boot layout periodTicks execTicks = .ok s) (hpos : 0 < periodTicks)
    (hperiod : periodTicks ≤ u32Max) (hexec : execTicks ≤ u32Max) : s.Timed := by
  refine ⟨fun k => ?_, ?_, fun t ht => ?_⟩
  · rw [boot_timing hboot]
    split
    · exact ⟨hperiod, hexec⟩
    · exact ⟨Nat.zero_le _, Nat.zero_le _⟩
  · rw [KTimerEntity.periodTicks, boot_timing hboot]
    exact hpos
  · obtain ⟨hinv, -, hsp, -⟩ := boot_base hboot
    rw [(hinv.fresh t (by rw [hsp]; simp)).1] at ht
    cases ht

/-! ### Ticks -/

/-- **A tick ends**: the loop of `dispatch_expired` stops after finitely many timers. -/
theorem tick_ends (h : s.Inv) (harmed : s.WaitArmed) (ht : s.Timed)
    (hnow : s.ktimers.nowTicks ≤ 2 ^ 63) (port : TimerPort) :
    ∃ fuel, s.handleSchedTick port fuel ≠ .error .hang := by
  unfold handleSchedTick
  by_cases hst : s.started = true
  · let elapsed := s.ktimers.elapsedTicksSinceLastInterrupt port
    have helapsed : elapsed ≤ u32Max := Kernel.elapsedTicksSinceLastInterrupt_le _ port
    have hlate : satAdd64 s.ktimers.nowTicks elapsed ≤ u64Max - 2 ^ 33 := by
      simp only [satAdd64, u64Max, u32Max] at *
      omega
    have hd : (s.advanced elapsed).Dispatchable :=
      h.dispatchable harmed hlate (fun k => (ht.fits k).period) fun k => (ht.fits k).deadline
    have hadvances : (s.advanced elapsed).Advances elapsed :=
      ⟨fun _ => ht.cfs, fun t hexp => ht.rt t ((hd.ok t).timer.mp hexp.1).1,
        fun t hkind _ _ => ht.rt t hkind⟩
    obtain ⟨fuel, hfuel⟩ := exists_ne_hang elapsed _ hd hadvances
    refine ⟨fuel, fun hrun => ?_⟩
    rw [if_pos hst] at hrun
    change (dispatchExpired elapsed fuel (s.advanced elapsed) >>= _) = _ at hrun
    cases hres : dispatchExpired elapsed fuel (s.advanced elapsed) with
    | error f =>
        rw [hres, error_bind] at hrun
        exact hfuel (hres.trans hrun)
    | ok s₁ =>
        rw [hres, ok_bind] at hrun
        cases hrun
  · exact ⟨0, by simp [hst]⟩

end Sched

/-! ### Runs -/

/-- The timing of a new RT thread fits, and its relative deadline is not zero. -/
def Event.TimingFits : Event α → Prop
  | .spawnRt _ timing => timing.Fits ∧ 0 < timing.relativeDeadlineTicks
  | _ => True

instance : DecidablePred (Event.TimingFits (α := α))
  | .spawnRt _ timing => inferInstanceAs (Decidable (timing.Fits ∧ _ < _))
  | .yieldyi _ | .msleepyi _ _ _ | .setRtThreadStartTime _ | .tryTake _ | .take _ _ | .give _
  | .tryLock _ | .lock _ _ | .unlock _ | .trySend _ _ | .tryReceive _ | .send _ _ _ _
  | .receive _ _ _ | .retry _ | .tick _ _ | .schedule _ | .spawnCfs _ _ | .start _ =>
      instDecidableTrue

/-- The same step with another bound on the number of timers that a tick dispatches. -/
def Event.withFuel (fuel : ℕ) : Event α → Event α
  | .tick port _ => .tick port fuel
  | ev => ev

/-- The serialized runs in which the timings fit, with the total of the ticks that have been
charged. -/
def prompts (α : Type) : Recorder α ℕ where
  Initial k := k.Initial ∧ k.sched.Timed
  Admits k ev _ := (k.sched.pendsv = true → ev.isSchedule = true) ∧ ev.TimingFits
  start := 0
  after k total ev _ := total + k.chargedTicks ev

instance (α : Type) (k : Kernel α) (ev : Event α) (k' : Kernel α) :
    Decidable ((prompts α).Admits k ev k') :=
  inferInstanceAs (Decidable ((_ → _) ∧ _))

namespace Kernel

variable {k k' : Kernel α} {c : Recorded α ℕ} {ev : Event α} {reply : Reply α}

/-- The wait timer is at the earliest wake-up time in every run. -/
lemma reachable_armed (h : k.Reachable) : k.sched.WaitArmed := by
  induction h with
  | start hi =>
      obtain ⟨layout, periodTicks, execTicks, hboot⟩ := hi.boot
      exact (Sched.boot_base hboot).2.2.2.2.2.2.1
  | step hr hs ih =>
      obtain ⟨ev, reply, hen, hrun⟩ := hs
      have hinv := reachable_inv hr
      obtain ⟨ls, hpath, -⟩ := (hinv.does hen hrun).path
      exact hpath.armed hinv.sched ih

/-- **A step keeps the timings** if those of a new RT thread fit. -/
lemma Inv.timed (h : k.Inv) (hen : k.Enabled ev) (hrun : k.exec ev = .ok (k', reply))
    (hfits : ev.TimingFits) (ht : k.sched.Timed) : k'.sched.Timed := by
  obtain ⟨ls, hpath, hl⟩ := (h.does hen hrun).path
  by_cases hsp : ∃ t timing, ev = .spawnRt t timing
  · obtain ⟨t, timing, rfl⟩ := hsp
    obtain ⟨s, hspawn, hrun⟩ := bind_eq_ok.mp hrun
    obtain ⟨rfl, -⟩ := Prod.mk.inj (Except.ok.inj hrun)
    exact Sched.spawnRt_timed h.sched.toBase hen.2 hfits.1 hfits.2 ht hspawn
  · refine hpath.timed h.sched (fun t hmem => ?_) ht
    obtain ⟨timing, rfl⟩ := Labels.spawnRt hl hmem
    exact hsp ⟨t, timing, rfl⟩

/-! ### The run and its invariants -/

lemma prompts_charges (h : (prompts α).Reachable c) : (charges α).Reachable c :=
  h.mono (fun _ hi => ⟨hi.initial.1, hi.record⟩)
    fun _ _ ⟨ev, hs⟩ => ⟨ev, hs.enabled, hs.exec, trivial, hs.record⟩

lemma prompts_prompt (h : (prompts α).Reachable c) : c.kernel.PromptReachable := by
  induction h with
  | start h => exact .start h.initial.1
  | step _ hs ih =>
      obtain ⟨ev, hs⟩ := hs
      obtain ⟨reply, hrun⟩ := hs.exec
      exact .step ih ⟨ev, reply, hs.enabled, hs.admits.1, hrun⟩

lemma prompts_timed (h : (prompts α).Reachable c) : c.kernel.sched.Timed := by
  induction h with
  | start h => exact h.initial.2
  | step hr hs ih =>
      obtain ⟨ev, hs⟩ := hs
      obtain ⟨reply, hrun⟩ := hs.exec
      exact (reachable_inv (charges_reachable (prompts_charges hr))).timed hs.enabled hrun
        hs.admits.2 ih

/-- A step that is not a tick ends whatever the bound, and a tick does with the right one. -/
lemma exists_ne_hang (h : k.Reachable) (ht : k.sched.Timed)
    (hnow : k.sched.ktimers.nowTicks ≤ 2 ^ 63) (hen : k.Enabled ev) :
    ∃ fuel, k.exec (ev.withFuel fuel) ≠ .error .hang := by
  have hinv := reachable_inv h
  by_cases htick : ∃ port fuel, ev = .tick port fuel
  · obtain ⟨port, n, rfl⟩ := htick
    obtain ⟨fuel, hfuel⟩ := Sched.tick_ends hinv.sched (reachable_armed h) ht hnow port
    refine ⟨fuel, fun hrun => hfuel ?_⟩
    change (k.sched.handleSchedTick port fuel >>= _) = _ at hrun
    cases hres : k.sched.handleSchedTick port fuel with
    | error f =>
        rw [hres, error_bind] at hrun
        cases hrun
        rfl
    | ok s₁ =>
        rw [hres, ok_bind] at hrun
        cases hrun
  · have hne : ∀ port fuel, ev ≠ .tick port fuel := fun port fuel heq => htick ⟨port, fuel, heq⟩
    have hsame : ev.withFuel 0 = ev := by
      cases ev with
      | tick port n => exact absurd rfl (hne port n)
      | _ => rfl
    have hspares := exec_settles (M := False) hinv ⟨False.elim, False.elim⟩ hen hne False.elim
    exact ⟨0, fun hrun => (hspares.error (hsame ▸ hrun)).1 rfl⟩

lemma Enabled.withFuel (hen : k.Enabled ev) (fuel : ℕ) : k.Enabled (ev.withFuel fuel) := by
  cases ev <;> exact hen

/-- **The kernel runs on.**  In a serialized run in which the timings have 32 bits and are not
zero, the sum of the priorities of all CFS threads fits into 32 bits and at most 2³² + 1 ticks have
been charged, both with the step that follows, and the clock is at most 2⁶³, every step ends, after
finitely many timers if it is a tick.  The only panic is a deadline miss, and only if some thread
has a runtime other than zero or an RT thread is blocked. -/
theorem runs_on (h : (prompts α).Reachable c) (hen : c.kernel.Enabled ev)
    (hnow : c.kernel.sched.ktimers.nowTicks ≤ 2 ^ 63)
    (hsum : c.kernel.sched.priorities c.kernel.sched.cfsThreads + ev.newPriority ≤ u32Max)
    (htotal : c.record + c.kernel.chargedTicks ev ≤ 2 ^ 32 + 1) :
    ∃ fuel, (∃ r, c.kernel.exec (ev.withFuel fuel) = .ok r) ∨
      c.kernel.exec (ev.withFuel fuel) = .error .deadlineMiss ∧
        ∃ t, c.kernel.sched.ktimers.runtime t ≠ 0 ∨
          c.kernel.sched.kind t = .rt ∧ (c.kernel.sched.state t).isBlocked = true := by
  have hk := charges_reachable (prompts_charges h)
  have hprompt := promptReachable_prompt (prompts_prompt h)
  obtain ⟨fuel, hfuel⟩ := exists_ne_hang hk (prompts_timed h) hnow hen
  refine ⟨fuel, ?_⟩
  have hen' := hen.withFuel fuel
  cases hrun : c.kernel.exec (ev.withFuel fuel) with
  | ok r => exact Or.inl ⟨r, rfl⟩
  | error f =>
      have harith : f ≠ .arithmetic := by
        rintro rfl
        refine charges_in_range (prompts_charges h) hen' ?_ ?_ hrun
        · cases ev <;> exact hsum
        · cases ev <;> exact htotal
      rcases prompt_fault (reachable_inv hk) hprompt hen' hrun with rfl | rfl | rfl
      · refine Or.inr ⟨rfl, ?_⟩
        -- otherwise the run could have been one without blocked RT threads
        by_contra hnone
        simp only [not_exists, not_or, not_not, not_and, Bool.not_eq_true] at hnone
        have hbusy : c.kernel.Busy := by
          exact ⟨reachable_inv hk, ⟨fun _ t _ => (hnone t).1, fun _ _ => False.elim⟩,
            fun t _ hrt => (hnone t).2 hrt⟩
        exact hbusy.ne_deadlineMiss hen' hrun
      · exact absurd rfl harith
      · exact absurd hrun hfuel

/-! ### A sleeping RT thread -/

/-- The state with its total after given steps from boot. -/
def promptsTrial (evs : List (Event ℕ)) : Option (Recorded ℕ ℕ) :=
  (trial next []).bind fun k => evs.foldlM (prompts ℕ).next ⟨k, 0⟩

lemma promptsTrial_reachable {evs : List (Event ℕ)} {c : Recorded ℕ ℕ}
    (h : promptsTrial evs = some c) : (prompts ℕ).Reachable c := by
  obtain ⟨k, hk, hrun⟩ := Option.bind_eq_some_iff.mp h
  refine Runs.Reach.foldlM (fun _ ev _ hs => ⟨ev, Recorder.next_step hs⟩)
    (.start ⟨⟨?_, ?_⟩, rfl⟩) hrun
  all_goals
    simp only [trial, List.foldlM_nil, Option.bind_eq_bind, Option.bind_eq_some_iff] at hk
    obtain ⟨k₀, hbooted, hk₀⟩ := hk
    obtain rfl := Option.some.inj hk₀
  · exact booted_initial hbooted
  · unfold booted at hbooted
    cases hboot : Sched.boot .packed 1000 500 with
    | error f =>
        rw [hboot] at hbooted
        cases hbooted
    | ok s =>
        rw [hboot] at hbooted
        obtain rfl := Option.some.inj hbooted
        exact Sched.boot_timed hboot (by decide) (by decide) (by decide)

/-- A CFS thread runs while an RT thread sleeps. -/
def sleepingTrial : Option (Recorded ℕ ℕ) := promptsTrial
  [.spawnCfs 1 10, .spawnRt 2 ⟨900, 800, 100⟩, .start 0, .tick ⟨some 499, some 0⟩ 8,
    .schedule ⟨some 499, some 0⟩, .msleepyi ⟨some 299, some 259⟩ 100 2,
    .schedule ⟨some 299, some 259⟩]

/-- The tick that wakes the sleeping thread ends. -/
theorem runs_on_sleeping : ∃ c, sleepingTrial = some c ∧ c.kernel.sched.state 2 = .waiting ∧
    ∃ fuel, (∃ r, c.kernel.exec (.tick ⟨some 499, some 0⟩ fuel) = .ok r) ∨
      c.kernel.exec (.tick ⟨some 499, some 0⟩ fuel) = .error .deadlineMiss ∧
        ∃ t, c.kernel.sched.ktimers.runtime t ≠ 0 ∨
          c.kernel.sched.kind t = .rt ∧ (c.kernel.sched.state t).isBlocked = true := by
  have htest : sleepingTrial.any (fun c => c.kernel.sched.state 2 == .waiting &&
      decide (c.kernel.sched.ktimers.nowTicks ≤ 2 ^ 63) &&
      decide (c.kernel.sched.priorities c.kernel.sched.cfsThreads ≤ u32Max) &&
      decide (c.record ≤ 2 ^ 32 + 1)) = true := by decide +kernel
  obtain ⟨c, hc, htest⟩ := (Option.any_eq_true ..).mp htest
  simp only [Bool.and_eq_true, beq_iff_eq, decide_eq_true_eq] at htest
  obtain ⟨⟨⟨hwaiting, hnow⟩, hsum⟩, htotal⟩ := htest
  have hen : c.kernel.Enabled (.tick ⟨some 499, some 0⟩ 8) := trivial
  exact ⟨c, hc, hwaiting, runs_on (promptsTrial_reachable hc) hen hnow hsum htotal⟩

end Kernel

end Rtsched

import Rtsched.Kernel.RtSpec
import Rtsched.Kernel.Window

/-!
The releases of RT jobs.

* `Kernel.releases`: runs without boosts that record when the current job of each RT thread was
  released, as long as its thread does not block.
* `Kernel.releases_periodic`: **in every run, the jobs are released period by period exactly if the
  runtime of each job, when its thread yields, is the time since its release**.
* `Kernel.Uncharged`: the runtime of a released job stays zero until its thread yields, unless the
  thread sets it: the ticks charge nothing to it.
* `Kernel.releases_unset`: if no thread does, each has to yield in the interval of its release.
-/

namespace Rtsched

open Outcome

variable {α : Type}

namespace Kernel

/-- The timer of an RT thread. -/
def rtEntity (k : Kernel α) (t : Tid) : KTimerEntity := k.sched.ktimers.entity (.rt t)

/-- `dispatch_expired` has released a job of the thread. -/
def Released (ev : Event α) (k k' : Kernel α) (t : Tid) : Prop :=
  ev.Dispatches k ∧ .rt t ∈ k.sched.ktimers.inactive ∧ .rt t ∈ k'.sched.ktimers.active

instance (ev : Event α) (k k' : Kernel α) (t : Tid) : Decidable (Released ev k k' t) :=
  inferInstanceAs (Decidable (_ ∧ _ ∧ _))

/-- Runs without boosts; the record has the release of the current job of each thread that has not
blocked or yielded since. -/
def releases (α : Type) : Recorder α (Tid → Option ℕ) where
  Initial := Initial
  Admits _ ev k' := ¬ ev.Boosts k'
  start _ := none
  after k release ev k' t :=
    if Released ev k k' t then some k'.sched.ktimers.nowTicks
    else if .rt t ∈ k'.sched.ktimers.active then release t else none

instance (k : Kernel α) (ev : Event α) (k' : Kernel α) : Decidable ((releases α).Admits k ev k') :=
  inferInstanceAs (Decidable (¬ _))

lemma releases_boostFree : (releases α).BoostFree := ⟨fun _ h => h, fun _ _ _ h => h⟩

/-- The thread that finishes its job by the step. -/
def finishes (ev : Event α) (k : Kernel α) : Option Tid :=
  match ev with
  | .yieldyi _ => k.sched.current
  | _ => none

/-- A thread that finishes its job before the next release leaves its timer inactive until then. -/
def KeepsPeriod (c : Recorded α (Tid → Option ℕ)) (ev : Event α)
    (c' : Recorded α (Tid → Option ℕ)) : Prop :=
  ∀ t ∈ finishes ev c.kernel, ∀ r ∈ c.record t,
    c'.kernel.sched.ktimers.nowTicks < r + (c.kernel.rtEntity t).periodTicks →
    .rt t ∈ c'.kernel.sched.ktimers.inactive ∧
      (c'.kernel.rtEntity t).expireAt = r + (c.kernel.rtEntity t).periodTicks

/-- The runtime that is charged to the finished job is the time since its release, and the next
release fits its type; at the very end of that type a smaller runtime saturates to the right
value. -/
def ChargedInFull (c : Recorded α (Tid → Option ℕ)) (ev : Event α)
    (c' : Recorded α (Tid → Option ℕ)) : Prop :=
  ∀ t ∈ finishes ev c.kernel, ∀ r ∈ c.record t,
    c'.kernel.sched.ktimers.nowTicks < r + (c.kernel.rtEntity t).periodTicks →
    r + (c.kernel.rtEntity t).periodTicks ≤ u64Max ∧
      (r + satAdd32 (c.kernel.sched.ktimers.runtime t) ev.elapsed =
          c.kernel.sched.ktimers.nowTicks + ev.elapsed ∨
        r + (c.kernel.rtEntity t).periodTicks = u64Max ∧
          r + satAdd32 (c.kernel.sched.ktimers.runtime t) ev.elapsed ≤
            c.kernel.sched.ktimers.nowTicks + ev.elapsed)

/-- A job has been released by the time now, and its timer is active. -/
structure ReleaseInv (c : Recorded α (Tid → Option ℕ)) : Prop where
  kernel : c.kernel.Inv
  unboosted : c.kernel.Unboosted
  released : ∀ t, ∀ r ∈ c.record t,
    .rt t ∈ c.kernel.sched.ktimers.active ∧ r ≤ c.kernel.sched.ktimers.nowTicks

variable {c c' : Recorded α (Tid → Option ℕ)} {ev : Event α}

/-- The jobs after a step: the one that is released, and those whose timers stay active. -/
lemma releases_cases {t : Tid} {r : ℕ} (hs : (releases α).Step c ev c') (hr : r ∈ c'.record t) :
    .rt t ∈ c'.kernel.sched.ktimers.active ∧
      ((Released ev c.kernel c'.kernel t ∧ c'.kernel.sched.ktimers.nowTicks = r) ∨
        r ∈ c.record t) := by
  rw [show c'.record t = _ from congrFun hs.record t] at hr
  simp only [releases] at hr
  split at hr
  · rename_i hrel
    exact ⟨hrel.2.2, Or.inl ⟨hrel, by simpa using hr⟩⟩
  · split at hr
    · rename_i hact
      exact ⟨hact, Or.inr hr⟩
    · cases hr

/-- **Every step keeps the timers of the released jobs active.** -/
theorem ReleaseInv.step (h : ReleaseInv c) (hs : (releases α).Step c ev c') : ReleaseInv c' := by
  obtain ⟨hinv', hu', hquiet⟩ := hs.quiet releases_boostFree h.kernel h.unboosted
  refine ⟨hinv', hu', fun t r hr => ?_⟩
  obtain ⟨hact', ⟨-, hnow⟩ | hold⟩ := releases_cases hs hr
  · exact ⟨hact', hnow.ge⟩
  · refine ⟨hact', (h.released t r hold).2.trans ?_⟩
    rcases hquiet with ⟨heq, -⟩ | ⟨l, hact, -⟩
    · rw [heq]
    · exact hact.now_le h.kernel.sched

/-- At boot there is no RT thread. -/
lemma Initial.not_linked {k : Kernel α} (h : k.Initial) (t : Tid) :
    ¬ k.sched.ktimers.Linked (.rt t) := fun hl => by
  obtain ⟨layout, periodTicks, execTicks, hboot⟩ := h.boot
  obtain ⟨hinv, -, hsp, -⟩ := Sched.boot_base hboot
  have hmem := (hinv.of_linked hl).2.2
  rw [hsp] at hmem
  cases hmem

lemma reachable_releaseInv (h : (releases α).Reachable c) : ReleaseInv c := by
  refine Runs.Reach.invariant (fun c hi => ?_) (fun _ _ hc ⟨_, hs⟩ => hc.step hs) h
  have hinit : c.kernel.Initial := hi.initial
  refine ⟨hinit.inv, hinit.unboosted, fun t r hr => ?_⟩
  rw [hi.record] at hr
  cases hr

/-- What `yieldyi` leaves behind for an RT thread. -/
lemma Inv.yieldyi_rt {k k' : Kernel α} {reply : Reply α} {port : TimerPort} {t : Tid} (h : k.Inv)
    (hen : k.Enabled (.yieldyi port)) (hrun : k.exec (.yieldyi port) = .ok (k', reply))
    (hc : k.sched.current = some t) (hrt : k.sched.kind t = .rt) :
    k'.sched.ktimers.nowTicks =
        satAdd64 k.sched.ktimers.nowTicks port.elapsedTicksSinceCurrentReload ∧
      .rt t ∈ k'.sched.ktimers.inactive ∧ (k'.rtEntity t).expireAt =
        k.sched.ktimers.yieldedExpireAt t port.elapsedTicksSinceCurrentReload := by
  have hs := h.sched
  obtain ⟨s, hyield, heq⟩ := bind_eq_ok.mp (hrun : k.lift _ = _)
  obtain ⟨rfl, -⟩ := Prod.mk.inj (Except.ok.inj heq)
  obtain ⟨s₁, hyield', -, -, -, hnow, -, -, hval⟩ := Sched.yieldyi_spec hs.tidy hs.cfs (hs.ok t)
    (by rw [hrt]; decide) (hs.awake hen.1.1 t hc) hc port
  obtain rfl : s₁.requestContextSwitch = s := Except.ok.inj (hyield'.symm.trans hyield)
  exact ⟨hnow, (hval hrt).1, (hval hrt).2.1⟩

/-- **One step keeps the period exactly if the runtime is the time since the release.** -/
lemma keepsPeriod_iff (h : ReleaseInv c) (hs : (releases α).Step c ev c') :
    KeepsPeriod c ev c' ↔ ChargedInFull c ev c' := by
  refine forall_congr' fun t => forall_congr' fun hfin => forall_congr' fun r =>
    forall_congr' fun hr => forall_congr' fun hlt => ?_
  obtain ⟨hact, -⟩ := h.released t r hr
  cases ev with
  | yieldyi port =>
      obtain ⟨reply, hexec⟩ := hs.exec
      obtain ⟨hnow, hin, hexp⟩ := h.kernel.yieldyi_rt hs.enabled hexec hfin
        (h.kernel.sched.of_linked (Or.inl hact)).1
      rw [hnow] at hlt
      rw [hexp, KTimers.yieldedExpireAt]
      exact (and_iff_right hin).trans (parkedAt_eq_iff hlt)
  | _ => cases hfin

/-- **Periodic release.**  In every run without boosts, every step leaves the timer of a finished
job inactive until one period after its release exactly if every step meets the condition. -/
theorem releases_periodic {l : List (Recorded α (Tid → Option ℕ) × Event α ×
    Recorded α (Tid → Option ℕ))} (h : (releases α).Run l c) :
    (∀ p ∈ l, KeepsPeriod p.1 p.2.1 p.2.2) ↔ ∀ p ∈ l, ChargedInFull p.1 p.2.1 p.2.2 :=
  h.forall_iff fun _ _ _ hreach hs => keepsPeriod_iff (reachable_releaseInv hreach) hs

/-! ### Threads that do not set their runtime -/

/-- No time has been accounted since the release of the job that is finished, and the next release
fits its type; at the very end of that type the sum saturates to the right value. -/
def YieldsAtOnce (c : Recorded α (Tid → Option ℕ)) (ev : Event α)
    (c' : Recorded α (Tid → Option ℕ)) : Prop :=
  ∀ t ∈ finishes ev c.kernel, ∀ r ∈ c.record t,
    c'.kernel.sched.ktimers.nowTicks < r + (c.kernel.rtEntity t).periodTicks →
    r + (c.kernel.rtEntity t).periodTicks ≤ u64Max ∧
      (c.kernel.sched.ktimers.nowTicks = r ∨ r + (c.kernel.rtEntity t).periodTicks = u64Max)

/-- An inactive RT timer and one whose job has been released without blocking have no runtime. -/
structure Uncharged (c : Recorded α (Tid → Option ℕ)) : Prop extends ReleaseInv c where
  inactive : ∀ t, .rt t ∈ c.kernel.sched.ktimers.inactive → c.kernel.sched.ktimers.runtime t = 0
  runtime : ∀ t, (c.record t).isSome → c.kernel.sched.ktimers.runtime t = 0

/-- **Every step that sets no runtime keeps the runtimes of the released jobs at zero.** -/
theorem Uncharged.step (h : Uncharged c) (hs : (releases α).Step c ev c') (hzero : ev.SetsZero) :
    Uncharged c' := by
  have hrel' := h.toReleaseInv.step hs
  have hinv' := hrel'.kernel
  obtain ⟨-, -, ⟨heq, hno⟩ | ⟨l, hact, hquiet⟩⟩ := hs.quiet releases_boostFree h.kernel h.unboosted
  · -- nothing happens to the scheduler
    refine ⟨hrel', fun t => ?_, fun t hsome => ?_⟩
    · rw [heq]
      exact h.inactive t
    · obtain ⟨r, hr⟩ := Option.isSome_iff_exists.mp hsome
      obtain ⟨-, ⟨hrel, -⟩ | hold⟩ := releases_cases hs hr
      · exact absurd hrel.1 hno
      · rw [heq]
        exact h.runtime t (by rw [hold]; rfl)
  · have hset : ∀ {t : Tid} {startTime : ℕ}, l = .times t startTime →
        c'.kernel.sched = { c.kernel.sched with
          ktimers := c.kernel.sched.ktimers.setRuntime t startTime } →
        c'.kernel.sched.ktimers.runtime t = 0 := by
      intro t startTime hl heq
      have hev := hquiet.times t startTime hl
      subst hev
      have hstart : startTime = 0 := hzero
      rw [heq, hstart]
      exact Function.update_self ..
    have hchange : ∀ t, c'.kernel.sched.ktimers.Linked (.rt t) →
        Sched.RtChange l t c.kernel.sched c'.kernel.sched := fun t hl =>
      hact.rtChange h.kernel.sched hquiet.sets (hinv'.sched.of_linked hl).1
    refine ⟨hrel', fun t hin => ?_, fun t hsome => ?_⟩
    · rcases (hchange t (Or.inr hin)).same_or_yields hinv'.sched hin with
        hsame | hrun | ⟨n, hl, heq⟩
      · exact hsame.runtime.trans (h.inactive t (hsame.inactive.mp hin))
      · exact hrun
      · exact hset hl heq
    · obtain ⟨r, hr⟩ := Option.isSome_iff_exists.mp hsome
      obtain ⟨hact', hcases⟩ := releases_cases hs hr
      have hlinked : c.kernel.sched.ktimers.Linked (.rt t) := by
        rcases hcases with ⟨hrel, -⟩ | hold
        · exact Or.inr hrel.2.1
        · exact Or.inl (h.released t r hold).1
      rcases (hchange t (Or.inl hact')).same_or_renewed h.kernel.sched hinv'.sched hlinked hact'
        with hsame | ⟨hnew, -⟩ | ⟨n, hl, heq⟩
      · refine hsame.runtime.trans ?_
        rcases hcases with ⟨hrel, -⟩ | hold
        · exact h.inactive t hrel.2.1
        · exact h.runtime t (by rw [hold]; rfl)
      · exact hnew.runtime
      · exact hset hl heq

/-- An interval of the timer is shorter than the type of the runtime counter. -/
lemma elapsed_le (port : TimerPort) : port.elapsedTicksSinceCurrentReload ≤ u32Max := by
  rw [TimerPort.elapsedTicksSinceCurrentReload]
  split
  · rename_i reload current _ _
    have hlt := reload.isLt
    simp only [u32Max]
    omega
  · exact Nat.zero_le _

/-- Without a runtime a job is charged the last interval only. -/
lemma Uncharged.chargedInFull_iff (h : Uncharged c) :
    ChargedInFull c ev c' ↔ YieldsAtOnce c ev c' := by
  refine forall_congr' fun t => forall_congr' fun hfin => forall_congr' fun r =>
    forall_congr' fun hr => forall_congr' fun _ => ?_
  cases ev with
  | yieldyi port =>
      have hle := (h.released t r hr).2
      have hsat : satAdd32 0 (Event.elapsed (.yieldyi port : Event α)) =
          Event.elapsed (.yieldyi port : Event α) := by
        rw [satAdd32, Nat.zero_add]
        exact min_eq_left (elapsed_le port)
      rw [h.runtime t (by rw [hr]; rfl), hsat]
      omega
  | _ => cases hfin

/-- **Periodic release without `set_rt_thread_start_time`**: the period is kept exactly if each
thread yields before any time has been accounted since its release. -/
theorem releases_unset {l : List (Recorded α (Tid → Option ℕ) × Event α ×
    Recorded α (Tid → Option ℕ))} (h : (releases α).Run l c) (hzero : ∀ p ∈ l, p.2.1.SetsZero) :
    (∀ p ∈ l, KeepsPeriod p.1 p.2.1 p.2.2) ↔ ∀ p ∈ l, YieldsAtOnce p.1 p.2.1 p.2.2 := by
  have hiff := (h.forall_of (I := Uncharged) (P := fun _ ev _ => ev.SetsZero)
    (Q := fun c ev c' => ChargedInFull c ev c' ↔ YieldsAtOnce c ev c') (fun c hi => ?_)
    (fun c ev c' hc hs hz => ⟨hc.step hs hz, hc.chargedInFull_iff⟩) hzero).2
  · rw [releases_periodic h]
    exact forall_congr' fun p => forall_congr' fun hp => hiff p hp
  · have hinit : c.kernel.Initial := hi.initial
    refine ⟨reachable_releaseInv (.start hi), fun t hin =>
      absurd (Or.inr hin) (hinit.not_linked t), fun t hsome => ?_⟩
    rw [hi.record] at hsome
    cases hsome

/-! ### A job between two others -/

instance (c : Recorded α (Tid → Option ℕ)) (ev : Event α) (c' : Recorded α (Tid → Option ℕ)) :
    Decidable (KeepsPeriod c ev c') :=
  inferInstanceAs (Decidable (∀ t ∈ finishes ev c.kernel, ∀ r ∈ c.record t, _ → _ ∧ _))

instance (c : Recorded α (Tid → Option ℕ)) (ev : Event α) (c' : Recorded α (Tid → Option ℕ)) :
    Decidable (ChargedInFull c ev c') :=
  inferInstanceAs (Decidable (∀ t ∈ finishes ev c.kernel, ∀ r ∈ c.record t, _ → _ ∧ _))

/-- An RT thread with a period of 300 ticks yields, and its second job is released at 500. -/
def secondJob : List (Event ℕ) :=
  [.start 0, .tick ⟨some 199, some 0⟩ 8, .schedule ⟨some 199, some 0⟩,
    .yieldyi ⟨some 199, some 149⟩, .schedule ⟨some 199, some 149⟩,
    .tick ⟨some 249, some 0⟩ 8, .schedule ⟨some 249, some 0⟩]

/-- Another RT thread runs first and until the tick at 600; the job that was released at 500
finishes at 610, and the next one is due at 900 instead of 800. -/
def delayedJob : List (Event ℕ) :=
  [.spawnRt 1 ⟨300, 200, 200⟩, .spawnRt 2 ⟨1000, 600, 600⟩] ++ secondJob ++
    [.tick ⟨some 99, some 0⟩ 8, .schedule ⟨some 99, some 0⟩, .yieldyi ⟨some 99, some 89⟩]

theorem release_drifts : ∃ r, (releases ℕ).trial delayedJob = some r ∧ (releases ℕ).Run r.1 r.2 ∧
    r.2.kernel.sched.ktimers.nowTicks = 610 ∧ (r.2.kernel.rtEntity 1).expireAt = 900 ∧
    ¬ ∀ p ∈ r.1, KeepsPeriod p.1 p.2.1 p.2.2 := by
  have htest : ((releases ℕ).trial delayedJob).any (fun r =>
      r.2.kernel.sched.ktimers.nowTicks == 610 && (r.2.kernel.rtEntity 1).expireAt == 900 &&
      decide (¬ ∀ p ∈ r.1, KeepsPeriod p.1 p.2.1 p.2.2)) = true := by decide +kernel
  obtain ⟨r, hr, htest⟩ := (Option.any_eq_true ..).mp htest
  simp only [Bool.and_eq_true, beq_iff_eq, decide_eq_true_eq] at htest
  obtain ⟨⟨hnow, hexp⟩, hnot⟩ := htest
  exact ⟨r, hr, Recorder.trial_run (fun _ h => h) hr, hnow, hexp, hnot⟩

/-- The job released at 500 finishes at 510.  The next one, released at 800, is interrupted by a
tick at 900, sets its runtime to the ticks it has lost and finishes at 910. -/
def punctualJobs : List (Event ℕ) :=
  [.spawnRt 1 ⟨300, 200, 200⟩] ++ secondJob ++
    [.yieldyi ⟨some 199, some 189⟩, .schedule ⟨some 199, some 189⟩, .tick ⟨some 289, some 0⟩ 8,
      .schedule ⟨some 289, some 0⟩, .tick ⟨some 99, some 0⟩ 8, .schedule ⟨some 99, some 0⟩,
      .setRtThreadStartTime 100, .yieldyi ⟨some 99, some 89⟩]

theorem releases_periodic_punctual : ∃ r, (releases ℕ).trial punctualJobs = some r ∧
    r.2.kernel.sched.ktimers.nowTicks = 910 ∧ (r.2.kernel.rtEntity 1).expireAt = 1100 ∧
    ∀ p ∈ r.1, KeepsPeriod p.1 p.2.1 p.2.2 := by
  have htest : ((releases ℕ).trial punctualJobs).any (fun r =>
      r.2.kernel.sched.ktimers.nowTicks == 910 && (r.2.kernel.rtEntity 1).expireAt == 1100 &&
      decide (∀ p ∈ r.1, ChargedInFull p.1 p.2.1 p.2.2)) = true := by decide +kernel
  obtain ⟨r, hr, htest⟩ := (Option.any_eq_true ..).mp htest
  simp only [Bool.and_eq_true, beq_iff_eq, decide_eq_true_eq] at htest
  obtain ⟨⟨hnow, hexp⟩, hall⟩ := htest
  exact ⟨r, hr, hnow, hexp, (releases_periodic (Recorder.trial_run (fun _ h => h) hr)).mpr hall⟩

end Kernel

end Rtsched

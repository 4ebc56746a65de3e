import Rtsched.Kernel.Release

/-!
The deadlines of RT jobs across blocking.

* `Kernel.jobs`: runs without boosts that record the current job of each RT thread: its release, and
  when it blocked last and with what runtime.
* `Kernel.JobInv`: the timer of a thread that can run holds the deadline of its job, and that of a
  suspended thread the end of its period, counted from where it blocked.
* `Kernel.jobs_deadline`: **in every run whose wake-ups meet the condition, each job keeps its
  deadline**.
-/

namespace Rtsched

open Outcome

variable {α : Type}

/-- A job of an RT thread: its release, the time at which its thread blocked last, and the runtime
charged by then. -/
structure Job where
  release : ℕ
  blockedAt : ℕ
  charged : ℕ
  deriving DecidableEq, Repr

namespace Kernel

/-- The thread blocks in the step. -/
def blocksIn (k k' : Kernel α) (t : Tid) : Bool :=
  (k'.sched.state t).isBlocked && !(k.sched.state t).isBlocked

/-- Runs without boosts; a job lasts from its release until its thread yields. -/
def jobs (α : Type) : Recorder α (Tid → Option Job) where
  Initial := Initial
  Admits _ ev k' := ¬ ev.Boosts k'
  start _ := none
  after k job ev k' t :=
    if Released ev k k' t then some ⟨k'.sched.ktimers.nowTicks, k'.sched.ktimers.nowTicks, 0⟩
    else if t ∈ finishes ev k then none
    else if blocksIn k k' t then
      (job t).map fun j => ⟨j.release, k'.sched.ktimers.nowTicks, k'.sched.ktimers.runtime t⟩
    else job t

instance (k : Kernel α) (ev : Event α) (k' : Kernel α) : Decidable ((jobs α).Admits k ev k') :=
  inferInstanceAs (Decidable (¬ _))

lemma jobs_boostFree : (jobs α).BoostFree := ⟨fun _ h => h, fun _ _ _ h => h⟩

/-- The absolute deadline of a job. -/
def deadline (k : Kernel α) (t : Tid) (j : Job) : ℕ :=
  j.release + (k.rtEntity t).relativeDeadlineTicks

/-- A thread that becomes ready before the deadline of its job has an active timer that expires at
that deadline. -/
def KeepsDeadline (c : Recorded α (Tid → Option Job)) (c' : Recorded α (Tid → Option Job)) : Prop :=
  ∀ t ∈ c'.kernel.sched.spawned, ∀ j ∈ c'.record t, c.kernel.sched.state t ≠ .ready →
    c'.kernel.sched.state t = .ready →
    c'.kernel.sched.ktimers.nowTicks < c'.kernel.deadline t j →
    .rt t ∈ c'.kernel.sched.ktimers.active ∧
      (c'.kernel.rtEntity t).expireAt = c'.kernel.deadline t j

/-- A thread that becomes ready before the deadline of its job, which fits its type, was suspended
where the rest of its period ends at that deadline, or slept and has been charged all the time since
its release. -/
def WakesOnTime (c : Recorded α (Tid → Option Job)) (c' : Recorded α (Tid → Option Job)) : Prop :=
  ∀ t ∈ c'.kernel.sched.spawned, ∀ j ∈ c'.record t, c.kernel.sched.state t ≠ .ready →
    c'.kernel.sched.state t = .ready →
    c'.kernel.sched.ktimers.nowTicks < c'.kernel.deadline t j →
    c'.kernel.deadline t j ≤ u64Max ∧
    (c.kernel.sched.state t = .suspended →
      j.blockedAt + ((c.kernel.rtEntity t).periodTicks - j.charged) = c'.kernel.deadline t j) ∧
    (c.kernel.sched.state t = .waiting →
      (c.kernel.rtEntity t).relativeDeadlineTicks ≤ u32Max ∧
      c.kernel.sched.ktimers.nowTicks = j.release + c.kernel.sched.ktimers.runtime t)

/-- What the timer of a thread with a job holds. -/
structure JobInv (k : Kernel α) (t : Tid) (j : Job) : Prop where
  kind : k.sched.kind t = .rt
  runs : (k.sched.state t).isBlocked = false → k.deadline t j ≤ k.sched.ktimers.nowTicks ∨
    u64Max < k.deadline t j ∨ (.rt t ∈ k.sched.ktimers.active ∧
      (k.rtEntity t).expireAt = k.deadline t j)
  suspended : k.sched.state t = .suspended → (k.rtEntity t).expireAt =
    satAdd64 j.blockedAt ((k.rtEntity t).periodTicks - j.charged)

variable {c c' : Recorded α (Tid → Option Job)} {ev : Event α} {t : Tid} {j : Job}

/-- The record after a step. -/
lemma jobs_cases (hrecord : c'.record = (jobs α).after c.kernel c.record ev c'.kernel)
    (hj : j ∈ c'.record t) :
    (Released ev c.kernel c'.kernel t ∧ j.release = c'.kernel.sched.ktimers.nowTicks) ∨
    (t ∉ finishes ev c.kernel ∧ ∃ j₀ ∈ c.record t, j.release = j₀.release ∧
      (if blocksIn c.kernel c'.kernel t then j.blockedAt = c'.kernel.sched.ktimers.nowTicks ∧
        j.charged = c'.kernel.sched.ktimers.runtime t else j = j₀)) := by
  rw [hrecord] at hj
  simp only [jobs] at hj
  split at hj
  · rename_i hrel
    obtain rfl := Option.some.inj hj
    exact Or.inl ⟨hrel, rfl⟩
  · split at hj
    · cases hj
    · rename_i hfin
      refine Or.inr ⟨hfin, ?_⟩
      split at hj
      · rename_i hb
        obtain ⟨j₀, hj₀, rfl⟩ := Option.map_eq_some_iff.mp hj
        exact ⟨j₀, hj₀, rfl, by rw [if_pos hb]; exact ⟨rfl, rfl⟩⟩
      · rename_i hb
        exact ⟨j, hj, rfl, by rw [if_neg hb]⟩

/-- The deadline of a job depends on its release and on the timing of its thread. -/
lemma deadline_congr {k k' : Kernel α} {j₀ : Job} (hrel : j.release = j₀.release)
    (htiming : (k'.rtEntity t).timing = (k.rtEntity t).timing) :
    k'.deadline t j = k.deadline t j₀ := by
  rw [deadline, deadline, hrel, KTimerEntity.relativeDeadlineTicks, htiming]
  rfl

section Step

variable {k k' : Kernel α} {l : Label}

/-- The timing of a thread that exists does not change. -/
lemma timing_eq (hact : Sched.Act l k.sched k'.sched) (ht : t ∈ k.sched.spawned) :
    (k'.rtEntity t).timing = (k.rtEntity t).timing := by
  refine hact.timing fun u kind hl htu => ?_
  obtain rfl := Timer.rt.inj htu
  subst hl
  cases hact with
  | spawns hnew _ _ _ _ => exact hnew ht

/-- A job that is released by a tick has its deadline set. -/
lemma jobInv_released (hinv : k.Inv) (hinv' : k'.Inv) (hact : Sched.Act l k.sched k'.sched)
    (hquiet : Quietly ev k l) (hrel : Released ev k k' t)
    (hnow : j.release = k'.sched.ktimers.nowTicks) : JobInv k' t j := by
  obtain ⟨hd, hin, hact'⟩ := hrel
  obtain ⟨hkind, hstate, -⟩ := hinv'.sched.of_linked (Or.inl hact')
  refine ⟨hkind, fun _ => ?_, fun hsusp => ?_⟩
  · rcases (hact.rtChange hinv.sched hquiet.sets hkind).same_or_renewed hinv.sched hinv'.sched
      (Or.inr hin) hact' with hsame | ⟨-, hexp⟩ | ⟨n, hl, -⟩
    · exact absurd hin (hinv.sched.tidy.ktimers.notMem_inactive (hsame.active.mp hact'))
    swap
    · -- setting a runtime releases no job
      have htick := hquiet.tick.mpr hd
      rw [hl] at htick
      cases htick
    · have hexp' : (k'.rtEntity t).expireAt = _ := hexp (hquiet.tick.mpr hd)
      have hrelative : (k'.rtEntity t).relativeDeadlineTicks =
          (k.rtEntity t).relativeDeadlineTicks :=
        congrArg RtTiming.relativeDeadlineTicks
          (timing_eq hact (hinv.sched.of_linked (Or.inr hin)).2.2)
      by_cases hfits : k'.deadline t j ≤ u64Max
      · refine Or.inr (Or.inr ⟨hact', hexp'.trans ?_⟩)
        rw [deadline, hnow, hrelative] at hfits ⊢
        exact min_eq_left hfits
      · exact Or.inr (Or.inl (not_le.mp hfits))
  · rw [hsusp] at hstate
    cases hstate

/-- A thread that blocks parks its timer at the end of its period. -/
lemma jobInv_blocks (hinv : k.Inv) (hinv' : k'.Inv) (hact : Sched.Act l k.sched k'.sched)
    (hquiet : Quietly ev k l) (hkind : k.sched.kind t = .rt) (hkind' : k'.sched.kind t = .rt)
    (hb : blocksIn k k' t = true) (hat : j.blockedAt = k'.sched.ktimers.nowTicks)
    (hcharged : j.charged = k'.sched.ktimers.runtime t) : JobInv k' t j := by
  obtain ⟨hb', hb⟩ : (k'.sched.state t).isBlocked = true ∧ (k.sched.state t).isBlocked = false := by
    simpa [blocksIn] using hb
  obtain ⟨hexp, hrun⟩ := (hact.rtChange hinv.sched hquiet.sets hkind').of_blocked hinv.sched
    hinv'.sched hkind hb hb'
  refine ⟨hkind', fun hno => absurd (hno.symm.trans hb') (by decide), fun _ => ?_⟩
  have hperiod : (k'.rtEntity t).periodTicks = (k.rtEntity t).periodTicks :=
    congrArg RtTiming.periodTicks (timing_eq hact (hinv.sched.mem_spawned (by rw [hkind]; decide)))
  rw [hat, hcharged, hact.nowTicks hinv.sched, hrun, hperiod]
  exact hexp

/-- A thread that a tick wakes after all the time since its release has been charged gets the
deadline of its job. -/
lemma timedExpireAt_eq {s : Sched} {elapsed d : ℕ}
    (hnow : s.ktimers.nowTicks = d + s.ktimers.runtime t)
    (hd : (s.ktimers.entity (.rt t)).relativeDeadlineTicks ≤ u32Max)
    (hfits : d + (s.ktimers.entity (.rt t)).relativeDeadlineTicks ≤ u64Max)
    (hlt : satAdd64 s.ktimers.nowTicks elapsed <
      d + (s.ktimers.entity (.rt t)).relativeDeadlineTicks) :
    (s.advanced elapsed).timedExpireAt t elapsed =
      d + (s.ktimers.entity (.rt t)).relativeDeadlineTicks := by
  have heq : (s.advanced elapsed).timedExpireAt t elapsed =
      satAdd64 (satAdd64 s.ktimers.nowTicks elapsed)
        ((s.ktimers.entity (.rt t)).relativeDeadlineTicks -
          satAdd32 (s.ktimers.runtime t) elapsed) := rfl
  rw [heq]
  simp only [satAdd64, satAdd32] at hlt ⊢
  omega

/-- A job that goes on keeps its timer. -/
lemma jobInv_goesOn (hinv : k.Inv) (hinv' : k'.Inv) (hact : Sched.Act l k.sched k'.sched)
    (hquiet : Quietly ev k l) (hfin : t ∉ finishes ev k) (hb : ¬ blocksIn k k' t = true)
    (hcond : k.sched.state t ≠ .ready → k'.sched.state t = .ready →
      k'.sched.ktimers.nowTicks < k'.deadline t j → k'.deadline t j ≤ u64Max ∧
      (k.sched.state t = .suspended →
        j.blockedAt + ((k.rtEntity t).periodTicks - j.charged) = k'.deadline t j) ∧
      (k.sched.state t = .waiting → (k.rtEntity t).relativeDeadlineTicks ≤ u32Max ∧
        k.sched.ktimers.nowTicks = j.release + k.sched.ktimers.runtime t))
    (h : JobInv k t j) : JobInv k' t j := by
  have hsp : t ∈ k.sched.spawned := hinv.sched.mem_spawned (by rw [h.kind]; decide)
  have hkind' : k'.sched.kind t = .rt := (hact.kind_eq hsp).trans h.kind
  have hdeadline : k'.deadline t j = k.deadline t j := deadline_congr rfl (timing_eq hact hsp)
  have hperiod : (k'.rtEntity t).periodTicks = (k.rtEntity t).periodTicks :=
    congrArg RtTiming.periodTicks (timing_eq hact hsp)
  have hle : k.sched.ktimers.nowTicks ≤ k'.sched.ktimers.nowTicks := hact.now_le hinv.sched
  have hnotBlocked : (k'.sched.state t).isBlocked = true → (k.sched.state t).isBlocked = true :=
    fun hb' => by simpa [blocksIn, hb'] using hb
  rcases hact.rtChange hinv.sched hquiet.sets hkind' with
    ⟨hsame, hstate⟩ | ⟨hnew, hlinked, -⟩ | ⟨-, heq⟩ | ⟨rfl, -, -, -⟩ |
    ⟨-, hacting, hblocked, -, -⟩ | ⟨-, hsusp, hready, hact', hkept⟩ |
    ⟨ht, hwait, hready, hact', hset⟩ | ⟨hnew, -⟩
  · have hentity : k'.rtEntity t = k.rtEntity t := hsame.entity
    refine ⟨hkind', fun hb' => ?_, fun hsusp => ?_⟩
    · have hb₀ : (k.sched.state t).isBlocked = false := by
        by_contra hno
        have hyes := Bool.eq_true_of_not_eq_false hno
        rw [hstate hyes, hyes] at hb'
        cases hb'
      rw [hdeadline, hentity]
      exact (h.runs hb₀).imp hle.trans' (Or.imp_right (And.imp_left hsame.active.mpr))
    · have hb' : (k'.sched.state t).isBlocked = true := by rw [hsusp]; rfl
      rw [hentity]
      exact h.suspended ((hstate (hnotBlocked hb')).symm.trans hsusp)
  · -- only an expired timer is renewed, so the deadline has been reached
    refine ⟨hkind', fun _ => ?_, fun hsusp => ?_⟩
    · rw [hdeadline]
      rcases h.runs (hinv.sched.of_linked hlinked).2.1 with hpast | hlong | ⟨-, hexp⟩
      · exact Or.inl (hpast.trans hle)
      · exact Or.inr (Or.inl hlong)
      · exact Or.inl (hexp.symm.le.trans hnew.expired)
    · have hawake := (hinv'.sched.of_linked (Or.inl hnew.active)).2.1
      rw [hsusp] at hawake
      cases hawake
  · -- the runtime that a thread sets is compared at its wake-up only
    have hentity : k'.rtEntity t = k.rtEntity t := by rw [rtEntity, heq, rtEntity]; rfl
    refine ⟨hkind', fun hb' => ?_, fun hsusp => ?_⟩
    · rw [hdeadline, hentity]
      rw [heq] at hb' ⊢
      exact h.runs hb'
    · rw [hentity]
      rw [heq] at hsusp
      exact h.suspended hsusp
  · have hyield : ev.isYield = true := hquiet.yield.symm
    cases ev with
    | yieldyi port => exact absurd hact.acting_of_yields.current hfin
    | _ => cases hyield
  · exact absurd (hacting.awake.symm.trans (hnotBlocked hblocked)) (by decide)
  · refine ⟨hkind', fun _ => ?_, fun hsusp' => ?_⟩
    · by_cases hlt : k'.sched.ktimers.nowTicks < k'.deadline t j
      · obtain ⟨hfits, hend, -⟩ := hcond (by rw [hsusp]; decide) hready hlt
        have hexp : (k.rtEntity t).expireAt = k'.deadline t j := by
          rw [h.suspended hsusp, satAdd64, hend hsusp]
          exact min_eq_left hfits
        refine Or.inr (Or.inr ⟨hact', ?_⟩)
        exact (hkept (hle.trans_lt (hlt.trans_eq hexp.symm))).1.trans hexp
      · exact Or.inl (not_lt.mp hlt)
    · rw [hready] at hsusp'
      cases hsusp'
  · refine ⟨hkind', fun _ => ?_, fun hsusp' => ?_⟩
    · by_cases hlt : k'.sched.ktimers.nowTicks < k'.deadline t j
      · obtain ⟨hfits, -, hcharged⟩ := hcond (by rw [hwait]; decide) hready hlt
        obtain ⟨hd, hnow⟩ := hcharged hwait
        have htick : k'.sched.ktimers.nowTicks = satAdd64 k.sched.ktimers.nowTicks l.elapsed :=
          hact.nowTicks hinv.sched
        rw [hdeadline] at hfits hlt ⊢
        rw [htick] at hlt
        have hexp := timedExpireAt_eq hnow hd hfits hlt
        exact Or.inr (Or.inr ⟨hact', (hset (hlt.trans_eq hexp.symm)).1.trans hexp⟩)
      · exact Or.inl (not_lt.mp hlt)
    · rw [hready] at hsusp'
      cases hsusp'
  · exact absurd hsp hnew

/-- What a job requires of its timer depends on the scheduler only. -/
lemma JobInv.congr (heq : k'.sched = k.sched) (h : JobInv k t j) : JobInv k' t j := by
  have hentity : k'.rtEntity t = k.rtEntity t := by rw [rtEntity, heq, rtEntity]
  have hdeadline : k'.deadline t j = k.deadline t j := by rw [deadline, hentity, deadline]
  exact ⟨by rw [heq]; exact h.kind, by rw [heq, hdeadline, hentity]; exact h.runs,
    by rw [heq, hentity]; exact h.suspended⟩

end Step

/-- The timers of all threads that have a job. -/
structure DeadlineInv (c : Recorded α (Tid → Option Job)) : Prop where
  kernel : c.kernel.Inv
  unboosted : c.kernel.Unboosted
  job : ∀ t, ∀ j ∈ c.record t, JobInv c.kernel t j

/-- **Every step that meets the condition keeps the timers of the jobs.** -/
theorem DeadlineInv.step (h : DeadlineInv c) (hs : (jobs α).Step c ev c')
    (hcond : WakesOnTime c c') : DeadlineInv c' := by
  obtain ⟨hinv', hu', hquiet⟩ := hs.quiet jobs_boostFree h.kernel h.unboosted
  refine ⟨hinv', hu', fun t j hj => ?_⟩
  rcases hquiet with ⟨heq, hno⟩ | ⟨l, hact, hquiet⟩
  · -- nothing happens to the scheduler
    rcases jobs_cases hs.record hj with ⟨hrel, -⟩ | ⟨-, j₀, hj₀, -, hif⟩
    · exact absurd hrel.1 hno
    · rw [if_neg (by simp [blocksIn, heq])] at hif
      rw [hif]
      exact (h.job t j₀ hj₀).congr heq
  · rcases jobs_cases hs.record hj with ⟨hrel, hnow⟩ | ⟨hfin, j₀, hj₀, hrel, hif⟩
    · exact jobInv_released h.kernel hinv' hact hquiet hrel hnow
    · have h₀ := h.job t j₀ hj₀
      have hsp : t ∈ c.kernel.sched.spawned := h.kernel.sched.mem_spawned (by rw [h₀.kind]; decide)
      have hkind' := (hact.kind_eq hsp).trans h₀.kind
      split at hif
      · rename_i hb
        exact jobInv_blocks h.kernel hinv' hact hquiet h₀.kind hkind' hb hif.1 hif.2
      · rename_i hb
        subst hif
        exact jobInv_goesOn h.kernel hinv' hact hquiet hfin hb
          (hcond t (hinv'.sched.mem_spawned (by rw [hkind']; decide)) j hj) h₀

/-- A thread whose timer holds the deadline of its job keeps that deadline. -/
lemma DeadlineInv.keepsDeadline (h : DeadlineInv c') (hcond : WakesOnTime c c') :
    KeepsDeadline c c' := by
  intro t ht j hj hnot hready hlt
  have hruns := (h.job t j hj).runs (by rw [hready]; rfl)
  rcases hruns with hpast | hlong | hholds
  · exact absurd hpast (not_le.mpr hlt)
  · exact absurd (hcond t ht j hj hnot hready hlt).1 (not_le.mpr hlong)
  · exact hholds

/-- **Deadline preservation across blocking.**  In every run without boosts whose wake-ups meet the
condition, a thread that becomes ready before the deadline of its job has an active timer that
expires at that deadline. -/
theorem jobs_deadline {l : List (Recorded α (Tid → Option Job) × Event α ×
    Recorded α (Tid → Option Job))} (h : (jobs α).Run l c) (hall : ∀ p ∈ l, WakesOnTime p.1 p.2.2) :
    ∀ p ∈ l, KeepsDeadline p.1 p.2.2 := by
  refine (h.forall_of (I := DeadlineInv) (P := fun c _ c' => WakesOnTime c c')
    (Q := fun c _ c' => KeepsDeadline c c') (fun c hi => ?_) (fun c ev c' hc hs hcond => ?_) hall).2
  · have hinit : c.kernel.Initial := hi.initial
    refine ⟨hinit.inv, hinit.unboosted, fun t j hj => ?_⟩
    rw [hi.record] at hj
    cases hj
  · have hc' := hc.step hs hcond
    exact ⟨hc', hc'.keepsDeadline hcond⟩

/-! ### Two jobs that block -/

instance (c c' : Recorded α (Tid → Option Job)) : Decidable (KeepsDeadline c c') :=
  inferInstanceAs (Decidable (∀ t ∈ c'.kernel.sched.spawned, ∀ j ∈ c'.record t, _ → _ → _ → _ ∧ _))

instance (c c' : Recorded α (Tid → Option Job)) : Decidable (WakesOnTime c c') :=
  inferInstanceAs (Decidable (∀ t ∈ c'.kernel.sched.spawned, ∀ j ∈ c'.record t, _ → _ → _ →
    _ ∧ (_ → _) ∧ (_ → _ ∧ _)))

/-- A job that is released at 500 with a relative deadline of 200 ticks waits for a semaphore and is
woken at 510. -/
def wokenJob : List (Event ℕ) :=
  [.spawnRt 1 ⟨300, 200, 200⟩] ++ secondJob ++
    [.take (.binary 0) ⟨some 199, some 189⟩, .schedule ⟨some 199, some 189⟩, .give (.binary 0)]

/-- Its timer expires at the end of the period. -/
theorem deadline_postponed : ∃ r, (jobs ℕ).trial wokenJob = some r ∧ (jobs ℕ).Run r.1 r.2 ∧
    (r.2.record 1).map Job.release = some 500 ∧ r.2.kernel.sched.state 1 = .ready ∧
    (r.2.kernel.rtEntity 1).expireAt = 800 ∧ ¬ ∀ p ∈ r.1, KeepsDeadline p.1 p.2.2 := by
  have htest : ((jobs ℕ).trial wokenJob).any (fun r =>
      (r.2.record 1).map Job.release == some 500 && r.2.kernel.sched.state 1 == .ready &&
      (r.2.kernel.rtEntity 1).expireAt == 800 &&
      decide (¬ ∀ p ∈ r.1, KeepsDeadline p.1 p.2.2)) = true := by decide +kernel
  obtain ⟨r, hr, htest⟩ := (Option.any_eq_true ..).mp htest
  simp only [Bool.and_eq_true, beq_iff_eq, decide_eq_true_eq] at htest
  obtain ⟨⟨⟨hrel, hready⟩, hexp⟩, hnot⟩ := htest
  exact ⟨r, hr, Recorder.trial_run (fun _ h => h) hr, hrel, hready, hexp, hnot⟩

/-- A job whose relative deadline is the period sleeps until 540 and waits for a semaphore at
545. -/
def punctualJob : List (Event ℕ) :=
  [.spawnRt 1 ⟨300, 300, 300⟩] ++ secondJob ++
    [.msleepyi ⟨some 299, some 289⟩ 1 20, .schedule ⟨some 299, some 289⟩, .tick ⟨some 29, some 0⟩ 8,
      .schedule ⟨some 29, some 0⟩, .take (.binary 0) ⟨some 99, some 94⟩,
      .schedule ⟨some 99, some 94⟩, .give (.binary 0)]

theorem jobs_deadline_punctual : ∃ r, (jobs ℕ).trial punctualJob = some r ∧
    (r.2.record 1).map Job.release = some 500 ∧ r.2.kernel.sched.state 1 = .ready ∧
    (r.2.kernel.rtEntity 1).expireAt = 800 ∧ ∀ p ∈ r.1, KeepsDeadline p.1 p.2.2 := by
  have htest : ((jobs ℕ).trial punctualJob).any (fun r =>
      (r.2.record 1).map Job.release == some 500 && r.2.kernel.sched.state 1 == .ready &&
      (r.2.kernel.rtEntity 1).expireAt == 800 &&
      decide (∀ p ∈ r.1, WakesOnTime p.1 p.2.2)) = true := by decide +kernel
  obtain ⟨r, hr, htest⟩ := (Option.any_eq_true ..).mp htest
  simp only [Bool.and_eq_true, beq_iff_eq, decide_eq_true_eq] at htest
  obtain ⟨⟨⟨hrel, hready⟩, hexp⟩, hall⟩ := htest
  exact ⟨r, hr, hrel, hready, hexp, jobs_deadline (Recorder.trial_run (fun _ h => h) hr) hall⟩

end Kernel

end Rtsched

import Rtsched.Kernel.Record

/-!
The windows of the CFS timer.

* `Sched.CfsChange`: what an action does to the CFS timer; `Sched.Act.cfsChange`: **every action
  that sets no deadline does this**.
* `Kernel.windows`: runs without boosts that record the latest activation of the CFS timer.
* `Kernel.windows_kept`: **in every run, the CFS timer keeps to its windows exactly if no tick meets
  it late and it is only switched out in the first interval of its window**.
-/

namespace Rtsched

open Outcome

variable {α : Type}

namespace Sched

variable {s s' : Sched}

/-- What an action does to the CFS timer: nothing; a timer that is due when the next timer is chosen
is re-armed; the timer is parked by a thread that gives up the processor; or it is dispatched. -/
inductive CfsChange (l : Label) (s s' : Sched) : Prop
  | stays (h : s'.ktimers.cfsView = s.ktimers.cfsView)
      (hlate : l.isTick = true →
        satAdd64 s.ktimers.nowTicks l.elapsed < (s.ktimers.entity .cfs).expireAt)
  | renewed (hl : l.isTick = false) (hact : (s.ktimers.entity .cfs).active = true)
      (hact' : (s'.ktimers.entity .cfs).active = true) {n : ℕ} (hn : s.ktimers.nowTicks ≤ n)
      (hexp : (s'.ktimers.entity .cfs).expireAt =
        satAdd64 n (s.ktimers.entity .cfs).periodTicks)
  | parks (hl : l.isTick = false) (hact' : (s'.ktimers.entity .cfs).active = false)
      (hexp : (s'.ktimers.entity .cfs).expireAt = s.ktimers.parkedExpireAt l.elapsed)
  | dispatched (hl : l.isTick = true)
      (hdue : (s.ktimers.entity .cfs).expireAt ≤ satAdd64 s.ktimers.nowTicks l.elapsed)
      (hcalm : satAdd64 s.ktimers.nowTicks l.elapsed < (s'.ktimers.entity .cfs).expireAt)
      (h : s'.ktimers.cfsView =
        if (s.ktimers.entity .cfs).active = true ∧
            satAdd64 s.ktimers.nowTicks l.elapsed < s.ktimers.parkedExpireAt l.elapsed
        then (false, s.ktimers.parkedExpireAt l.elapsed)
        else (true, satAdd64 (satAdd64 s.ktimers.nowTicks l.elapsed)
          (s.ktimers.entity .cfs).periodTicks))

namespace CfsChange

variable {l : Label}

/-- Nothing has happened to the timer. -/
lemma of_same (hl : l.isTick = false) (h : KTimers.Same s.ktimers s'.ktimers .cfs) :
    CfsChange l s s' :=
  .stays h.cfsView_eq fun ht => absurd (hl.symm.trans ht) (by decide)

/-- The timer is not the one that the action is about. -/
lemma of_frame (hl : l.isTick = false) (h : s.Inv) (h' : s'.Inv) {K : Timer → Prop}
    (hf : KTimers.Frame K s.ktimers s'.ktimers) (hK : ¬ K .cfs) : CfsChange l s s' := by
  rcases hf.rearmed .cfs hK with hsame | hnew
  · exact .of_same hl hsame
  · obtain ⟨n, hn, -, hexp⟩ := hnew.expireAt
    exact .renewed hl ((h.tidy.ktimers.mem_active_iff h.cfs).mp (hnew.cfs rfl))
      ((h'.tidy.ktimers.mem_active_iff h'.cfs).mp hnew.active) hn hexp

end CfsChange

/-- **What an action does to the CFS timer.** -/
theorem Act.cfsChange {l : Label} (h : s.Inv) (ha : Act l s s') (hsets : l.setsDeadline = false) :
    CfsChange l s s' := by
  have h' := ha.inv h
  -- a thread that gives up the processor parks the timer if it is its own
  have hparks : ∀ {t : Tid} {s₁ : Sched}, l.isTick = false → s.Acting t → s₁.Inv →
      KTimers.Frame (fun k => k = .wait ∨ s.threadSchedulerKtimer t = some k) s.ktimers s₁.ktimers →
      (s.kind t = .cfs → s.Parks l.elapsed s₁) → CfsChange l s s₁ := by
    intro t s₁ hl hact h₁ hframe hp
    by_cases hk : s.kind t = .cfs
    · obtain ⟨hin, hexp⟩ := hp hk
      exact .parks hl (h₁.tidy.ktimers.flag_inactive _ hin) hexp
    · refine .of_frame hl h h₁ hframe ?_
      rintro (hc | hc)
      · cases hc
      · unfold threadSchedulerKtimer at hc
        cases hkind : s.kind t with
        | cfs => exact hk hkind
        | idle | rt => simp [hkind] at hc
  cases ha with
  | yields hact hy =>
      exact hparks rfl hact h' (hy.frame.mono fun k hk => Or.inr hk) fun hc =>
        ⟨(hy.cfs hc).inactive, (hy.cfs hc).expireAt⟩
  | sleeps hact _ _ hb =>
      exact hparks rfl hact h' hb.frame fun hc => ⟨(hb.cfs hc).inactive, (hb.cfs hc).expireAt⟩
  | blocks hact hb _ =>
      exact hparks rfl hact h' hb.frame fun hc => ⟨(hb.cfs hc).inactive, (hb.cfs hc).expireAt⟩
  | times _ _ _ => exact .of_same rfl (KTimers.edits_setRuntime.same (by simp))
  | wakes _ hr _ => exact .of_frame rfl h h' hr.frame (by simp)
  | sets _ _ _ _ => cases hsets
  | @ticks _ s₁ elapsed hw hcfs _ _ _ hcalm =>
      have hlt : satAdd64 s.ktimers.nowTicks elapsed < (s₁.ktimers.entity .cfs).expireAt := by
        have hnow : s₁.ktimers.nowTicks = satAdd64 s.ktimers.nowTicks elapsed := hw.nowTicks
        rw [← hnow]
        exact hcalm .cfs hcfs
      rcases CfsTurn.settled hw.cfs hlt with ⟨hlate, heq⟩ | ⟨hdue, heq⟩
      · exact .stays heq fun _ => hlate
      · exact .dispatched rfl hdue hlt heq
  | switches hsw =>
      exact .of_same rfl (by rw [hsw.ktimers]; exact .refl _ _)
  | @spawns _ _ t kind _ _ hk _ _ =>
      rcases hk with heq | ⟨timing, -, hset, -⟩
      · exact .of_same rfl (by rw [heq]; exact .refl _ _)
      · have hinit := initRtThread_same s t timing (k := .cfs) (by simp)
        rcases hset.frame.rearmed .cfs (by simp) with hsame | hnew
        · exact .of_same rfl (hinit.trans hsame)
        · have hnew' := KTimers.Renewed.of_same hinit hnew le_rfl
          obtain ⟨n, hn, -, hexp⟩ := hnew'.expireAt
          exact .renewed rfl ((h.tidy.ktimers.mem_active_iff h.cfs).mp (hnew'.cfs rfl))
            ((h'.tidy.ktimers.mem_active_iff h'.cfs).mp hnew'.active) hn hexp
  | starts _ _ hk => exact .of_same rfl (by rw [hk]; exact .refl _ _)

end Sched

/-! ### Windows -/

/-- The end of the period in which a timer is parked, measured from the start of its window, if
`charged` ticks of the period are taken to have passed. -/
lemma parkedAt_eq_iff {since now elapsed charged periodTicks : ℕ}
    (hlt : satAdd64 now elapsed < since + periodTicks) :
    satAdd64 (satAdd64 now elapsed) (periodTicks - charged) = since + periodTicks ↔
      since + periodTicks ≤ u64Max ∧ (since + charged = now + elapsed ∨
        since + periodTicks = u64Max ∧ since + charged ≤ now + elapsed) := by
  simp only [satAdd64] at hlt ⊢
  omega

/-- Only the ticks of the last interval are taken to have passed. -/
lemma parked_eq_iff {since now elapsed periodTicks : ℕ} (hle : since ≤ now)
    (hlt : satAdd64 now elapsed < since + periodTicks) :
    satAdd64 (satAdd64 now elapsed) (periodTicks - elapsed) = since + periodTicks ↔
      since + periodTicks ≤ u64Max ∧ (now = since ∨ since + periodTicks = u64Max) := by
  rw [parkedAt_eq_iff hlt]
  omega

namespace Kernel

/-- The timer that all CFS threads share. -/
def cfsEntity (k : Kernel α) : KTimerEntity := k.sched.ktimers.entity .cfs

/-- `dispatch_expired` has turned the CFS timer over: it has put it into the other tree, or into the
other tree and back with a new expiration. -/
def Turned (ev : Event α) (k k' : Kernel α) : Prop :=
  ev.Dispatches k ∧ k'.sched.ktimers.cfsView ≠ k.sched.ktimers.cfsView

/-- The CFS timer has been made inactive. -/
def Parked (ev : Event α) (k k' : Kernel α) : Prop :=
  k.cfsEntity.active = true ∧ (k'.cfsEntity.active = false ∨ Turned ev k k')

/-- `dispatch_expired` has activated the CFS timer. -/
def Activated (ev : Event α) (k k' : Kernel α) : Prop :=
  k'.cfsEntity.active = true ∧ Turned ev k k'

instance (ev : Event α) (k k' : Kernel α) : Decidable (Turned ev k k') :=
  inferInstanceAs (Decidable (_ ∧ _))

instance (ev : Event α) (k k' : Kernel α) : Decidable (Parked ev k k') :=
  inferInstanceAs (Decidable (_ ∧ _))

instance (ev : Event α) (k k' : Kernel α) : Decidable (Activated ev k k') :=
  inferInstanceAs (Decidable (_ ∧ _))

/-- Runs without boosts; the record is the time of the latest activation of the CFS timer. -/
def windows (α : Type) : Recorder α ℕ where
  Initial := Initial
  Admits _ ev k' := ¬ ev.Boosts k'
  start := 0
  after k since ev k' := if Activated ev k k' then k'.sched.ktimers.nowTicks else since

instance (k : Kernel α) (ev : Event α) (k' : Kernel α) : Decidable ((windows α).Admits k ev k') :=
  inferInstanceAs (Decidable (¬ _))

lemma windows_boostFree : (windows α).BoostFree := ⟨fun _ h => h, fun _ _ _ h => h⟩

/-- The CFS timer keeps to its window: it is made inactive by the first dispatch after its slice,
and whenever it is made inactive within its period, it expires at the end of that period. -/
def KeepsWindow (c : Recorded α ℕ) (ev : Event α) (c' : Recorded α ℕ) : Prop :=
  (ev.Dispatches c.kernel → c.kernel.cfsEntity.active = true →
    c.record + c.kernel.cfsEntity.relativeDeadlineTicks ≤ c'.kernel.sched.ktimers.nowTicks →
    Parked ev c.kernel c'.kernel) ∧
  (Parked ev c.kernel c'.kernel →
    c'.kernel.sched.ktimers.nowTicks < c.record + c.kernel.cfsEntity.periodTicks →
    c'.kernel.cfsEntity.expireAt = c.record + c.kernel.cfsEntity.periodTicks)

/-- No dispatch after its slice finds the CFS timer before its expiration, and whenever it is made
inactive within its period, no time has been accounted since its activation.  Then the end of the
period fits its type; at the very end of that type the sum saturates to the right value. -/
def InFirstInterval (c : Recorded α ℕ) (ev : Event α) (c' : Recorded α ℕ) : Prop :=
  (ev.Dispatches c.kernel → c.kernel.cfsEntity.active = true →
    c.record + c.kernel.cfsEntity.relativeDeadlineTicks ≤ c'.kernel.sched.ktimers.nowTicks →
    c.kernel.cfsEntity.expireAt ≤ c'.kernel.sched.ktimers.nowTicks) ∧
  (Parked ev c.kernel c'.kernel →
    c'.kernel.sched.ktimers.nowTicks < c.record + c.kernel.cfsEntity.periodTicks →
    c.record + c.kernel.cfsEntity.periodTicks ≤ u64Max ∧
      (c.kernel.sched.ktimers.nowTicks = c.record ∨
        c.record + c.kernel.cfsEntity.periodTicks = u64Max))

/-- The record is not in the future. -/
lemma windows_le {c : Recorded α ℕ} (h : (windows α).Reachable c) :
    c.kernel.Inv ∧ c.kernel.Unboosted ∧ c.record ≤ c.kernel.sched.ktimers.nowTicks := by
  refine Runs.Reach.invariant (P := fun c => c.kernel.Inv ∧ c.kernel.Unboosted ∧
    c.record ≤ c.kernel.sched.ktimers.nowTicks) (fun c hi => ?_) ?_ h
  · refine ⟨hi.initial.inv, hi.initial.unboosted, ?_⟩
    rw [hi.record]
    exact Nat.zero_le _
  · rintro c c' ⟨hinv, hu, hle⟩ ⟨ev, hs⟩
    obtain ⟨hinv', hu', hquiet⟩ := hs.quiet windows_boostFree hinv hu
    refine ⟨hinv', hu', ?_⟩
    have hnow : c.kernel.sched.ktimers.nowTicks ≤ c'.kernel.sched.ktimers.nowTicks := by
      rcases hquiet with ⟨heq, -⟩ | ⟨l, hact, -⟩
      · rw [heq]
      · exact hact.now_le hinv.sched
    rw [hs.record]
    simp only [windows]
    split
    · exact le_rfl
    · exact hle.trans hnow

section Step

variable {k k' : Kernel α} {ev : Event α} {l : Label}

/-- A dispatch makes the active CFS timer inactive exactly if it is due. -/
lemma parked_iff_due (h : k.Inv) (hact : Sched.Act l k.sched k'.sched)
    (hquiet : Quietly ev k l) (hd : ev.Dispatches k) (ha : k.cfsEntity.active = true) :
    Parked ev k k' ↔ k.cfsEntity.expireAt ≤ k'.sched.ktimers.nowTicks := by
  rw [hact.nowTicks h.sched]
  cases hact.cfsChange h.sched hquiet.sets with
  | stays hview hlate =>
      refine iff_of_false ?_ (Nat.not_le.mpr (hlate (hquiet.tick.mpr hd)))
      rintro ⟨-, hact' | ⟨-, hne⟩⟩
      · have heq : k'.cfsEntity.active = k.cfsEntity.active := congrArg Prod.fst hview
        rw [heq, ha] at hact'
        cases hact'
      · exact hne hview
  | renewed hl _ _ _ _ => exact absurd (hl.symm.trans (hquiet.tick.mpr hd)) (by decide)
  | parks hl _ _ => exact absurd (hl.symm.trans (hquiet.tick.mpr hd)) (by decide)
  | dispatched _ hdue hcalm _ =>
      refine iff_of_true ⟨ha, Or.inr ⟨hd, fun hview => ?_⟩⟩ hdue
      -- the new expiration lies in the future and the old one does not
      have heq : k'.cfsEntity.expireAt = k.cfsEntity.expireAt := congrArg Prod.snd hview
      have hlt := hdue.trans_lt hcalm
      exact absurd heq hlt.ne'

/-- A timer that is made inactive within its period has been parked after the last interval. -/
lemma Parked.expireAt (h : k.Inv) (hact : Sched.Act l k.sched k'.sched)
    (hquiet : Quietly ev k l) (hp : Parked ev k k') {since : ℕ}
    (hle : since ≤ k.sched.ktimers.nowTicks)
    (hlt : k'.sched.ktimers.nowTicks < since + k.cfsEntity.periodTicks) :
    k'.cfsEntity.expireAt = k.sched.ktimers.parkedExpireAt l.elapsed := by
  obtain ⟨ha, hturn⟩ := hp
  rw [hact.nowTicks h.sched] at hlt
  cases hact.cfsChange h.sched hquiet.sets with
  | stays hview _ =>
      rcases hturn with hact' | ⟨-, hne⟩
      · have heq : k'.cfsEntity.active = k.cfsEntity.active := congrArg Prod.fst hview
        rw [heq, ha] at hact'
        cases hact'
      · exact absurd hview hne
  | renewed hl _ hact' _ _ =>
      rcases hturn with hno | ⟨hd, -⟩
      · exact absurd (hact'.symm.trans hno) (by decide)
      · exact absurd (hl.symm.trans (hquiet.tick.mpr hd)) (by decide)
  | parks _ _ hexp => exact hexp
  | dispatched _ _ hcalm hview =>
      by_cases hfuture : satAdd64 k.sched.ktimers.nowTicks l.elapsed <
          k.sched.ktimers.parkedExpireAt l.elapsed
      · rw [if_pos ⟨ha, hfuture⟩] at hview
        exact congrArg Prod.snd hview
      · -- the timer has been activated again, so its period is over
        rw [if_neg fun hc => hfuture hc.2] at hview
        have hexp : (k'.sched.ktimers.entity .cfs).expireAt = _ := congrArg Prod.snd hview
        rw [hexp] at hcalm
        simp only [cfsEntity, KTimers.parkedExpireAt, satAdd64] at *
        omega

end Step

/-- **One step keeps the window exactly in the first interval.** -/
lemma keepsWindow_iff {c c' : Recorded α ℕ} {ev : Event α} (h : (windows α).Reachable c)
    (hs : (windows α).Step c ev c') : KeepsWindow c ev c' ↔ InFirstInterval c ev c' := by
  obtain ⟨hinv, hu, hle⟩ := windows_le h
  obtain ⟨hinv', hu', hquiet⟩ := hs.quiet windows_boostFree hinv hu
  rcases hquiet with ⟨heq, hno⟩ | ⟨l, hact, hquiet⟩
  · -- nothing happens to the scheduler
    have hnot : ¬ Parked ev c.kernel c'.kernel := by
      rintro ⟨ha, hact' | ⟨hd, -⟩⟩
      · rw [cfsEntity, heq, ← cfsEntity, ha] at hact'
        cases hact'
      · exact hno hd
    exact iff_of_true ⟨fun hd => absurd hd hno, fun hp => absurd hp hnot⟩
      ⟨fun hd => absurd hd hno, fun hp => absurd hp hnot⟩
  · refine and_congr ?_ ?_
    · refine forall_congr' fun hd => forall_congr' fun ha => forall_congr' fun _ => ?_
      exact parked_iff_due hinv hact hquiet hd ha
    · refine forall_congr' fun hp => forall_congr' fun hlt => ?_
      rw [hp.expireAt hinv hact hquiet hle hlt]
      refine parked_eq_iff hle ?_
      rwa [← hact.nowTicks hinv.sched]

/-- **From its second window on, the active CFS timer expires at the end of its period** or later,
not after its slice. -/
theorem windows_expireAt {c : Recorded α ℕ} (h : (windows α).Reachable c) :
    c.kernel.cfsEntity.active = true → c.record = 0 ∨
      min (c.record + c.kernel.cfsEntity.periodTicks) u64Max ≤ c.kernel.cfsEntity.expireAt := by
  induction h with
  | start hi => exact fun _ => Or.inl hi.record
  | @step c c' h hs ih =>
      intro ha
      obtain ⟨ev, hs⟩ := hs
      obtain ⟨hinv, hu, hle⟩ := windows_le h
      obtain ⟨-, -, hquiet⟩ := hs.quiet windows_boostFree hinv hu
      have hrecord : c'.record = if Activated ev c.kernel c'.kernel
          then c'.kernel.sched.ktimers.nowTicks else c.record := hs.record
      rcases hquiet with ⟨heq, hno⟩ | ⟨l, hact, hquiet⟩
      · rw [hrecord, if_neg fun hc => hno hc.2.1]
        rw [cfsEntity, heq] at ha ⊢
        exact ih ha
      · have hperiod : c'.kernel.cfsEntity.periodTicks = c.kernel.cfsEntity.periodTicks :=
          congrArg RtTiming.periodTicks (hact.timing (by simp))
        rw [hrecord, hperiod]
        cases hact.cfsChange hinv.sched hquiet.sets with
        | stays hview _ =>
            have heq : c'.kernel.cfsEntity.active = c.kernel.cfsEntity.active :=
              congrArg Prod.fst hview
            have heq' : c'.kernel.cfsEntity.expireAt = c.kernel.cfsEntity.expireAt :=
              congrArg Prod.snd hview
            rw [if_neg fun hc => hc.2.2 hview, heq']
            exact ih (heq ▸ ha)
        | renewed hl _ _ hn hexp =>
            rw [if_neg fun hc => absurd (hl.symm.trans (hquiet.tick.mpr hc.2.1)) (by decide)]
            refine Or.inr ?_
            rw [cfsEntity, cfsEntity, hexp, satAdd64]
            omega
        | parks _ hact' _ => exact absurd (ha.symm.trans hact') (by decide)
        | dispatched hl hdue hcalm hview =>
            have hnot : ¬ (c.kernel.cfsEntity.active = true ∧
                satAdd64 c.kernel.sched.ktimers.nowTicks l.elapsed <
                  c.kernel.sched.ktimers.parkedExpireAt l.elapsed) := by
              intro hc
              rw [cfsEntity] at hc
              rw [if_pos hc] at hview
              have hoff : c'.kernel.cfsEntity.active = false := congrArg Prod.fst hview
              exact absurd (ha.symm.trans hoff) (by decide)
            rw [cfsEntity] at hnot
            rw [if_neg hnot] at hview
            have hexp : c'.kernel.cfsEntity.expireAt = _ := congrArg Prod.snd hview
            have hnow := hact.nowTicks hinv.sched
            -- the timer has been turned over at the new time
            have hturn : Activated ev c.kernel c'.kernel := by
              refine ⟨ha, hquiet.tick.mp hl, fun heq => ?_⟩
              have hsame : c'.kernel.cfsEntity.expireAt = c.kernel.cfsEntity.expireAt :=
                congrArg Prod.snd heq
              exact absurd hsame (hdue.trans_lt hcalm).ne'
            rw [if_pos hturn, hexp, hnow]
            exact Or.inr le_rfl

/-- **CFS window.**  In every run without boosts, the CFS timer keeps to its window at every step
exactly if every step meets the condition. -/
theorem windows_kept {c : Recorded α ℕ} {l : List (Recorded α ℕ × Event α × Recorded α ℕ)}
    (h : (windows α).Run l c) :
    (∀ p ∈ l, KeepsWindow p.1 p.2.1 p.2.2) ↔ ∀ p ∈ l, InFirstInterval p.1 p.2.1 p.2.2 :=
  h.forall_iff fun _ _ _ => keepsWindow_iff

/-! ### Two windows -/

instance (c : Recorded α ℕ) (ev : Event α) (c' : Recorded α ℕ) : Decidable (KeepsWindow c ev c') :=
  inferInstanceAs (Decidable ((_ → _ → _ → _) ∧ (_ → _ → _)))

instance (c : Recorded α ℕ) (ev : Event α) (c' : Recorded α ℕ) :
    Decidable (InFirstInterval c ev c') :=
  inferInstanceAs (Decidable ((_ → _ → _ → _) ∧ (_ → _ → _ ∧ _)))

/-- A CFS thread runs into the tick at 500, and again from the start of the second period on. -/
def secondWindow : List (Event ℕ) :=
  [.spawnCfs 1 10, .start 0, .tick ⟨some 499, some 0⟩ 8, .schedule ⟨some 499, some 0⟩,
    .tick ⟨some 499, some 0⟩ 8, .schedule ⟨some 499, some 0⟩]

/-- The tick at 1500 ends the slice of the second window, and the CFS timer stays active. -/
theorem slice_not_enforced : ∃ r, (windows ℕ).trial (secondWindow ++ [.tick ⟨some 499, some 0⟩ 8]) =
    some r ∧ (windows ℕ).Run r.1 r.2 ∧ r.2.record = 1000 ∧
    r.2.kernel.cfsEntity.relativeDeadlineTicks = 500 ∧ r.2.kernel.cfsEntity.periodTicks = 1000 ∧
    r.2.kernel.sched.ktimers.nowTicks = 1500 ∧ r.2.kernel.cfsEntity.active = true ∧
    ¬ ∀ p ∈ r.1, KeepsWindow p.1 p.2.1 p.2.2 := by
  have htest : ((windows ℕ).trial (secondWindow ++ [.tick ⟨some 499, some 0⟩ 8])).any (fun r =>
      r.2.record == 1000 && r.2.kernel.cfsEntity.relativeDeadlineTicks == 500 &&
      r.2.kernel.cfsEntity.periodTicks == 1000 && r.2.kernel.sched.ktimers.nowTicks == 1500 &&
      r.2.kernel.cfsEntity.active && decide (¬ ∀ p ∈ r.1, KeepsWindow p.1 p.2.1 p.2.2)) = true := by
    decide +kernel
  obtain ⟨r, hr, htest⟩ := (Option.any_eq_true ..).mp htest
  simp only [Bool.and_eq_true, beq_iff_eq, decide_eq_true_eq] at htest
  obtain ⟨⟨⟨⟨⟨hrecord, hslice⟩, hperiod⟩, hnow⟩, hact⟩, hnot⟩ := htest
  exact ⟨r, hr, Recorder.trial_run (fun _ h => h) hr, hrecord, hslice, hperiod, hnow, hact, hnot⟩

/-- A thread that yields before the first tick of the second window keeps it. -/
theorem windows_kept_yield : ∃ r,
    (windows ℕ).trial (secondWindow ++ [.yieldyi ⟨some 499, some 399⟩]) = some r ∧
    r.2.record = 1000 ∧ r.2.kernel.cfsEntity.active = false ∧
    ∀ p ∈ r.1, KeepsWindow p.1 p.2.1 p.2.2 := by
  have htest : ((windows ℕ).trial (secondWindow ++ [.yieldyi ⟨some 499, some 399⟩])).any (fun r =>
      r.2.record == 1000 && !r.2.kernel.cfsEntity.active &&
      decide (∀ p ∈ r.1, InFirstInterval p.1 p.2.1 p.2.2)) = true := by
    decide +kernel
  obtain ⟨r, hr, htest⟩ := (Option.any_eq_true ..).mp htest
  simp only [Bool.and_eq_true, beq_iff_eq, decide_eq_true_eq, Bool.not_eq_true'] at htest
  obtain ⟨⟨hrecord, hact⟩, hall⟩ := htest
  exact ⟨r, hr, hrecord, hact, (windows_kept (Recorder.trial_run (fun _ h => h) hr)).mpr hall⟩

end Kernel

end Rtsched

import Rtsched.Kernel.RtSpec
import Rtsched.Kernel.Clock

/-!
The charges of CFS threads and the time they run.

* `Metered`: the kernel with its timer, the ticks that `schedule` has charged to each thread, and
  those during which it was the current one.
* `Metered.Settled`: all but the present interval has been charged; `Metered.schedule_exact`: what a
  switch charges is what the interval took exactly if the whole interval has passed.
* `Metered.charges_exact`: **in every run, every switch leaves the charges exact exactly if every
  switch from a CFS thread comes at the end of a whole interval**.
-/

namespace Rtsched

open Outcome

variable {α : Type}

/-! ### The current thread -/

namespace Sched

variable {s s' : Sched} {t : Tid}

/-- The thread is a CFS thread or has not been created yet. -/
def CfsOrNew (s : Sched) (t : Tid) : Prop := t ∈ s.spawned → s.kind t = .cfs

/-- Such a thread was one before. -/
lemma Path.cfsOrNew {ls : List Label} (hp : Path ls s s') (ht : s'.CfsOrNew t) : s.CfsOrNew t :=
  fun hsp => (hp.kind_eq hsp).symm.trans (ht (hp.spawned_subset hsp))

/-- Only a switch makes a CFS thread current or ends its turn. -/
lemma Act.current_iff {l : Label} (ha : Act l s s') (hl : l ≠ .switches) (ht : s'.CfsOrNew t) :
    s'.current = some t ↔ s.current = some t := by
  have hsame : ∀ {s₁ : Sched}, s₁.current = s.current →
      (s₁.current = some t ↔ s.current = some t) := fun hc => by rw [hc]
  cases ha with
  | yields _ hy => exact hsame hy.moves.control.current
  | sleeps _ _ _ hb => exact hsame hb.moves.control.current
  | blocks _ hb _ => exact hsame hb.moves.control.current
  | times _ _ _ => exact hsame rfl
  | wakes _ hr _ => exact hsame hr.moves.control.current
  | sets hm _ _ _ => exact hsame hm.control.current
  | ticks hw _ _ _ _ _ => exact hsame hw.control.current
  | switches _ => exact absurd rfl hl
  | spawns _ hsp _ _ _ => rw [hsp.current]
  | @starts _ _ u _ _ _ hc hc' _ hs hplace _ _ _ =>
      -- the idle thread starts
      rw [hc, hc']
      refine iff_of_false (fun heq => ?_) (by simp)
      obtain rfl := Option.some.inj heq
      have hkind : s'.kind u = .cfs := ht (by rw [hs]; exact List.mem_cons_self)
      rw [kind_of_place hplace, if_pos rfl] at hkind
      cases hkind

lemma Path.current_iff {ls : List Label} (hp : Path ls s s') (hl : ∀ l ∈ ls, l ≠ .switches)
    (ht : s'.CfsOrNew t) : s'.current = some t ↔ s.current = some t := by
  induction hp with
  | nil => rfl
  | @cons s s₁ s' l ls ha hp ih =>
      rw [ih (fun l' hl' => hl l' (List.mem_cons_of_mem _ hl')) ht]
      exact ha.current_iff (hl l List.mem_cons_self) (hp.cfsOrNew ht)

/-- What a charge adds. -/
lemma charge_schedTickCnt {r r' : RunQueue} {elapsed : ℕ} (h : r.charge t elapsed = .ok r')
    (u : Tid) : (r'.entity u).schedTickCnt = (r.entity u).schedTickCnt +
      if u = t ∧ r.prioritySum ≠ 0 then elapsed else 0 := by
  unfold RunQueue.charge at h
  split at h
  · rename_i hzero
    obtain rfl := Except.ok.inj h
    rw [if_neg fun hc => hc.2 hzero, Nat.add_zero]
  · rename_i hsum
    obtain ⟨delta, -, h⟩ := bind_eq_ok.mp h
    split at h
    · cases h
    · obtain rfl := Except.ok.inj h
      by_cases hu : u = t
      · simp [RunQueue.setEntity, hu, hsum]
      · simp [RunQueue.setEntity, hu]

/-- What a switch charges. -/
lemma Switches.schedTickCnt {elapsed : ℕ} (h : Switches elapsed s s') {d : Tid}
    (hd : s.current = some d) (u : Tid) :
    (s'.runq.entity u).schedTickCnt = (s.runq.entity u).schedTickCnt +
      if u = d ∧ s.kind d = .cfs ∧ s.state d = .running ∧ s.runq.prioritySum ≠ 0 then elapsed
      else 0 := by
  obtain ⟨r, ⟨d', hd', hcharge⟩, hentity, -⟩ := h.charged
  obtain rfl : d' = d := Option.some.inj (hd'.symm.trans hd)
  rw [hentity]
  split at hcharge
  · rename_i hruns
    rw [charge_schedTickCnt hcharge]
    simp [hruns]
  · rename_i hnot
    rw [hcharge, if_neg fun hc => hnot ⟨hc.2.1, hc.2.2.1⟩, Nat.add_zero]

end Sched

namespace Kernel

variable {k k' : Kernel α} {ev : Event α}

/-- A step other than `schedule` switches to no thread. -/
lemma ne_switches {ls : List Label}
    (hl : Labels k k' ev ls ∨ (ev.isQueueOp = true ∧ TurnLabels ev.elapsed ls))
    (hev : ev.isSchedule = false) : ∀ l ∈ ls, l ≠ .switches := by
  cases stepLabels_of hl with
  | nil => simp
  | single l =>
      simp only [List.mem_singleton, forall_eq]
      rintro rfl
      exact absurd ((isSchedule_of_switches hl).symm.trans hev) (by decide)
  | boost t o elapsed u => simp
  | restore u t o => simp

/-- A step that can come next is a sequence of actions. -/
lemma Inv.next_path (h : k.Inv) (hn : k.next ev = some k') :
    ∃ ls, Sched.Path ls k.sched k'.sched ∧
      (ev.isSchedule = false → ∀ l ∈ ls, l ≠ .switches) := by
  obtain ⟨hen, reply, hrun⟩ := next_eq_some.mp hn
  obtain ⟨ls, hpath, hl⟩ := (h.does hen hrun).path
  exact ⟨ls, hpath, ne_switches hl⟩

end Kernel

/-- A step of the clock other than the switch is a sequence of actions that switches to no
thread. -/
lemma Clocked.Inv.path {c c' : Clocked α} {i : Clocked.Input α} (h : c.Inv)
    (hn : c.next i = some c') (hi : i ≠ .schedule) :
    ∃ ls, Sched.Path ls c.kernel.sched c'.kernel.sched ∧ ∀ l ∈ ls, l ≠ .switches := by
  cases i with
  | pass n =>
      rw [Clocked.next] at hn
      split at hn
      · obtain rfl := Option.some.inj hn
        exact ⟨[], .nil, by simp⟩
      · cases hn
  | tick fuel =>
      rw [Clocked.next] at hn
      split at hn
      · obtain ⟨k, hk, hc'⟩ := Option.bind_eq_some_iff.mp hn
        obtain rfl := Option.some.inj hc'
        obtain ⟨ls, hpath, hl⟩ := h.kernel.next_path hk
        exact ⟨ls, hpath, hl rfl⟩
      · cases hn
  | op ev =>
      rw [Clocked.next] at hn
      split at hn
      · obtain ⟨k, hk, hc'⟩ := Option.bind_eq_some_iff.mp hn
        obtain ⟨ls, hpath, hl⟩ := h.kernel.next_path hk
        obtain ⟨hen, reply, hrun⟩ := Kernel.next_eq_some.mp hk
        cases ev with
        | tick port fuel => cases hc'
        | schedule port => cases hc'
        | start t =>
            obtain rfl := Option.some.inj hc'
            refine ⟨ls, ?_, hl rfl⟩
            rw [(Clocked.program_spec ((h.kernel.does hen hrun).inv h.kernel)).1]
            exact hpath
        | _ =>
            obtain rfl := Option.some.inj hc'
            exact ⟨ls, hpath, hl rfl⟩
      · cases hn
  | schedule => exact absurd rfl hi

/-- What a switch of the clock charges. -/
lemma Clocked.Inv.charges {c c' : Clocked α} (h : c.Inv) (hn : c.next .schedule = some c') :
    ∃ d, c.kernel.sched.current = some d ∧ c'.kernel.sched.kind = c.kernel.sched.kind ∧
      c'.kernel.sched.spawned = c.kernel.sched.spawned ∧
      ∀ u, (c'.kernel.sched.runq.entity u).schedTickCnt =
        (c.kernel.sched.runq.entity u).schedTickCnt +
          if u = d ∧ c.kernel.sched.kind d = .cfs ∧ c.kernel.sched.state d = .running ∧
            c.kernel.sched.runq.prioritySum ≠ 0 then c.reload + 1 else 0 := by
  rw [Clocked.next] at hn
  obtain ⟨k, hk, hc'⟩ := Option.bind_eq_some_iff.mp hn
  obtain rfl := Option.some.inj hc'
  obtain ⟨hen, reply, hrun⟩ := Kernel.next_eq_some.mp hk
  obtain ⟨d, hd⟩ := Option.isSome_iff_exists.mp hen.2
  have hsw := h.kernel.switches hen hrun
  rw [(Clocked.program_spec (c := { c with kernel := k })
    ((h.kernel.does hen hrun).inv h.kernel)).1]
  refine ⟨d, hd, hsw.kind, hsw.spawned, fun u => ?_⟩
  rw [hsw.schedTickCnt hd, Clocked.elapsed_interrupt h]

/-! ### Metered runs -/

/-- The time that passes by a step. -/
def Clocked.Input.ticks : Clocked.Input α → ℕ
  | .pass n => n
  | .tick _ => 1
  | .op _ | .schedule => 0

/-- The kernel with its timer: the ticks since the last switch, the ticks that `schedule` has
charged to each thread, and those during which it was the current thread. -/
structure Metered (α : Type) where
  clock : Clocked α
  held : ℕ
  charged : Tid → ℕ
  ran : Tid → ℕ

namespace Metered

variable {c c' : Metered α}

/-- The scheduler. -/
def sched (c : Metered α) : Sched := c.clock.kernel.sched

/-- The meters after a step. -/
def after (c : Metered α) (i : Clocked.Input α) (clock : Clocked α) : Metered α where
  clock := clock
  held := match i with
    | .schedule => 0
    | i => c.held + i.ticks
  charged t := match i with
    | .schedule => c.charged t + ((clock.kernel.sched.runq.entity t).schedTickCnt -
        (c.sched.runq.entity t).schedTickCnt)
    | _ => c.charged t
  ran t := if c.sched.current = some t then c.ran t + i.ticks else c.ran t

/-- One step. -/
def next (c : Metered α) (i : Clocked.Input α) : Option (Metered α) :=
  (c.clock.next i).map (c.after i)

/-- At the start nothing has been measured. -/
structure Initial (c : Metered α) : Prop where
  clock : c.clock.Initial
  held : c.held = 0
  charged : ∀ t, c.charged t = 0
  ran : ∀ t, c.ran t = 0

/-- The metered runs. -/
abbrev Run : List (Metered α × Clocked.Input α × Metered α) → Metered α → Prop :=
  Runs.Run Initial fun c i c' => c.next i = some c'

/-- Every CFS thread has been charged the ticks during which it was the current thread. -/
def Exact (c : Metered α) : Prop := ∀ t, c.sched.kind t = .cfs → c.charged t = c.ran t

/-- If the current thread is a CFS thread, it still runs and the whole interval of the timer has
passed, or it is not to be charged and no time has passed. -/
def WholeInterval (c : Metered α) : Prop :=
  ∀ t ∈ c.sched.current, c.sched.kind t = .cfs → c.held =
    if c.sched.state t = .running ∧ c.sched.runq.prioritySum ≠ 0 then c.clock.reload + 1 else 0

/-- All but the present interval has been charged. -/
structure Settled (c : Metered α) : Prop where
  clock : c.clock.Inv
  charged : ∀ t, c.sched.CfsOrNew t →
    c.charged t + (if c.sched.current = some t then c.held else 0) = c.ran t

lemma Initial.settled (h : c.Initial) : Settled c := by
  refine ⟨h.clock.inv, fun t _ => ?_⟩
  rw [h.charged, h.ran, h.held, ite_self]

/-- Between two switches the meters run on. -/
lemma Settled.step (h : Settled c) {i : Clocked.Input α} (hn : c.next i = some c')
    (hi : i ≠ .schedule) : Settled c' := by
  obtain ⟨clock, hclock, rfl⟩ := Option.map_eq_some_iff.mp hn
  obtain ⟨ls, hpath, hl⟩ := h.clock.path hclock hi
  refine ⟨h.clock.next hclock, fun t ht => ?_⟩
  have hold := h.charged t (hpath.cfsOrNew ht)
  have hcur : clock.kernel.sched.current = some t ↔ c.sched.current = some t :=
    hpath.current_iff hl ht
  have hheld : (c.after i clock).held = c.held + i.ticks := by
    cases i with
    | schedule => exact absurd rfl hi
    | _ => rfl
  have hcharged : (c.after i clock).charged t = c.charged t := by
    cases i with
    | schedule => exact absurd rfl hi
    | _ => rfl
  have hran : (c.after i clock).ran t =
      if c.sched.current = some t then c.ran t + i.ticks else c.ran t := rfl
  rw [hheld, hcharged, hran]
  change c.charged t + (if clock.kernel.sched.current = some t then _ else _) = _
  by_cases ht : c.sched.current = some t
  · rw [if_pos (hcur.mpr ht), if_pos ht]
    rw [if_pos ht] at hold
    omega
  · rw [if_neg fun hc => ht (hcur.mp hc), if_neg ht]
    rw [if_neg ht] at hold
    exact hold

/-- **A switch leaves the charges exact exactly if it comes at the end of a whole interval.** -/
lemma Settled.schedule (h : Settled c) (hn : c.next .schedule = some c') :
    (Exact c' ↔ WholeInterval c) ∧ (Exact c' → Settled c') := by
  obtain ⟨clock, hclock, rfl⟩ := Option.map_eq_some_iff.mp hn
  obtain ⟨d, hd, hkind, hspawned, hcnt⟩ := h.clock.charges hclock
  replace hd : c.sched.current = some d := hd
  have hran : ∀ t, (c.after .schedule clock).ran t = c.ran t := fun t => ite_self _
  have hcharged : ∀ t, (c.after .schedule clock).charged t = c.charged t +
      if t = d ∧ c.sched.kind d = .cfs ∧ c.sched.state d = .running ∧
        c.sched.runq.prioritySum ≠ 0 then c.clock.reload + 1 else 0 := by
    intro t
    change c.charged t + ((clock.kernel.sched.runq.entity t).schedTickCnt - _) = _
    rw [hcnt t]
    exact congrArg _ (Nat.add_sub_cancel_left ..)
  -- the other threads have been charged before
  have hother : ∀ t, t ≠ d → c.sched.CfsOrNew t →
      (c.after .schedule clock).charged t = (c.after .schedule clock).ran t := by
    intro t ht hnew
    have hold := h.charged t hnew
    rw [if_neg fun hc => ht (Option.some.inj (hc.symm.trans hd)), Nat.add_zero] at hold
    rw [hcharged, if_neg fun hc => ht hc.1, hran, Nat.add_zero, hold]
  have hself : c.sched.kind d = .cfs →
      ((c.after .schedule clock).charged d = (c.after .schedule clock).ran d ↔ c.held =
        if c.sched.state d = .running ∧ c.sched.runq.prioritySum ≠ 0 then c.clock.reload + 1
        else 0) := by
    intro hcfs
    have hold := h.charged d fun _ => hcfs
    rw [if_pos hd] at hold
    rw [hcharged, hran, ← hold]
    simp only [hcfs, true_and]
    omega
  have hcfs : ∀ t, (c.after .schedule clock).sched.kind t = .cfs ↔ c.sched.kind t = .cfs := by
    intro t
    rw [show (c.after .schedule clock).sched.kind = _ from hkind]
    rfl
  refine ⟨⟨fun hexact t ht hkt => ?_, fun hwhole t hkt => ?_⟩,
    fun hexact => ⟨h.clock.next hclock, fun t ht => ?_⟩⟩
  · obtain rfl : d = t := Option.some.inj (hd.symm.trans ht)
    exact (hself hkt).mp (hexact d ((hcfs d).mpr hkt))
  · by_cases htd : t = d
    · subst htd
      exact (hself ((hcfs t).mp hkt)).mpr (hwhole t hd ((hcfs t).mp hkt))
    · exact hother t htd fun _ => (hcfs t).mp hkt
  · have hheld : (if (c.after .schedule clock).sched.current = some t then
        (c.after .schedule clock).held else 0) = 0 := ite_self _
    rw [hheld, Nat.add_zero]
    have hnew : c.sched.CfsOrNew t := fun hsp =>
      (hcfs t).mp (ht (show t ∈ clock.kernel.sched.spawned from hspawned ▸ hsp))
    by_cases htd : t = d
    · subst htd
      exact hexact t ((hcfs t).mpr (hnew (h.clock.kernel.sched.spawned t hd)))
    · exact hother t htd hnew

/-- **Exact CFS charging.**  In every run, every switch leaves the charges exact exactly if every
switch from a CFS thread comes at the end of a whole interval. -/
theorem charges_exact {l : List (Metered α × Clocked.Input α × Metered α)} (h : Run l c) :
    (∀ p ∈ l, p.2.1 = .schedule → Exact p.2.2) ↔
      ∀ p ∈ l, p.2.1 = .schedule → WholeInterval p.1 := by
  refine h.forall_iff_of (I := Settled) (P := fun _ i c' => i = .schedule → Exact c')
    (Q := fun c i _ => i = .schedule → WholeInterval c) (fun _ hi => hi.settled)
    fun c i c' hc hn => ?_
  by_cases hi : i = .schedule
  · subst hi
    obtain ⟨hiff, hsettled⟩ := hc.schedule hn
    exact ⟨by simpa using hiff, fun hexact => hsettled (hexact rfl)⟩
  · exact ⟨by simp [hi], fun _ => hc.step hn hi⟩

/-! ### A thread that blocks and one that is preempted -/

instance : DecidablePred (· = (Clocked.Input.schedule : Clocked.Input α))
  | .schedule => isTrue rfl
  | .pass _ | .tick _ | .op _ => isFalse (by simp)

instance (c : Metered α) : Decidable (WholeInterval c) :=
  inferInstanceAs (Decidable (∀ t ∈ c.sched.current, _ → _ = ite _ _ _))

/-- The metered run of given steps from boot. -/
def trial (is : List (Clocked.Input ℕ)) :
    Option (List (Metered ℕ × Clocked.Input ℕ × Metered ℕ) × Metered ℕ) := do
  let clock ← Clocked.trial []
  Runs.Run.play next ⟨clock, 0, fun _ => 0, fun _ => 0⟩ is

lemma trial_run {is : List (Clocked.Input ℕ)}
    {r : List (Metered ℕ × Clocked.Input ℕ × Metered ℕ) × Metered ℕ} (h : trial is = some r) :
    Run r.1 r.2 := by
  simp only [trial, Clocked.trial, Kernel.trial, List.foldlM_nil, Option.bind_eq_bind,
    Option.bind_eq_some_iff] at h
  obtain ⟨clock, ⟨k, ⟨k₀, hboot, hk⟩, heq⟩, hrun⟩ := h
  obtain rfl := Option.some.inj hk
  obtain rfl := Option.some.inj heq
  refine .of_play (fun _ _ _ hn => hn) ⟨?_, rfl, fun _ => rfl, fun _ => rfl⟩ hrun
  exact ⟨Kernel.booted_initial hboot, Nat.zero_le _, rfl, rfl, rfl⟩

/-- A CFS thread that blocks after 20 ticks is not charged for them. -/
theorem block_not_charged : ∃ r, trial (Clocked.blockInputs ++ [.schedule]) = some r ∧ Run r.1 r.2 ∧
    r.2.sched.kind 1 = .cfs ∧ r.2.charged 1 = 0 ∧ r.2.ran 1 = 20 ∧
    ¬ ∀ p ∈ r.1, p.2.1 = .schedule → Exact p.2.2 := by
  have htest : (trial (Clocked.blockInputs ++ [.schedule])).any (fun r =>
      r.2.sched.kind 1 == .cfs && r.2.charged 1 == 0 && r.2.ran 1 == 20 &&
      r.1.any fun p => decide (p.2.1 = .schedule) && p.2.2.sched.kind 1 == .cfs &&
        decide (p.2.2.charged 1 ≠ p.2.2.ran 1)) = true := by decide +kernel
  obtain ⟨r, hr, htest⟩ := (Option.any_eq_true ..).mp htest
  simp only [Bool.and_eq_true, beq_iff_eq, List.any_eq_true, decide_eq_true_eq] at htest
  obtain ⟨⟨⟨hkind, hcharged⟩, hran⟩, p, hp, ⟨hsched, hcfs⟩, hne⟩ := htest
  exact ⟨r, hr, trial_run hr, hkind, hcharged, hran, fun hall => hne (hall p hp hsched 1 hcfs)⟩

/-- A CFS thread that runs for a whole interval is charged 500 ticks. -/
theorem charges_exact_tick : ∃ r, trial [.op (.spawnCfs 1 10), .op (.start 0), .pass 499, .tick 8,
      .schedule, .pass 499, .tick 8, .schedule, .pass 499, .tick 8, .schedule] = some r ∧
    r.2.charged 1 = 500 ∧ r.2.ran 1 = 500 ∧ ∀ p ∈ r.1, p.2.1 = .schedule → Exact p.2.2 := by
  have htest : (trial [.op (.spawnCfs 1 10), .op (.start 0), .pass 499, .tick 8, .schedule,
      .pass 499, .tick 8, .schedule, .pass 499, .tick 8, .schedule]).any (fun r =>
      r.2.charged 1 == 500 && r.2.ran 1 == 500 &&
      decide (∀ p ∈ r.1, p.2.1 = .schedule → WholeInterval p.1)) = true := by
    decide +kernel
  obtain ⟨r, hr, htest⟩ := (Option.any_eq_true ..).mp htest
  simp only [Bool.and_eq_true, beq_iff_eq, decide_eq_true_eq] at htest
  obtain ⟨⟨hcharged, hran⟩, hall⟩ := htest
  exact ⟨r, hr, hcharged, hran, (charges_exact (trial_run hr)).mpr hall⟩

end Metered

end Rtsched

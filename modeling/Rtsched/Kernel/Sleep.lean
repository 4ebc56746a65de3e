import Rtsched.Kernel.Serial

/-!
Timed sleep over whole runs.

* `Sched.Act.armed`: **every action leaves the wait timer at the earliest wake-up time**.
* `Sleeps`: a kernel with the time until which each thread has asked to sleep.
* `Sleeps.reachable_sleeps`: **a sleep ends at the first tick at or after its time**, and not
  before.
-/

namespace Rtsched

open Ordered Outcome

variable {α : Type}

namespace Sched

variable {s s' : Sched} {t u : Tid}

/-! ### The wait timer -/

/-- The wait timer depends on its own entity and on the threads in the timeout tree. -/
lemma WaitArmed.congr (ha : s.WaitArmed) (hwait : s'.ktimers.entity .wait = s.ktimers.entity .wait)
    (htree : s'.waitq.tree = s.waitq.tree)
    (hent : ∀ u ∈ s.waitq.tree, s'.waitq.entity u = s.waitq.entity u) : s'.WaitArmed := by
  have hfirst : s'.firstWakeAt = s.firstWakeAt := by
    unfold firstWakeAt
    rw [htree]
    cases hhead : s.waitq.tree.head? with
    | none => rfl
    | some u => exact congrArg (fun e => some e.wakeAt) (hent u (List.mem_of_mem_head? hhead))
  rw [WaitArmed, hwait, hfirst]
  exact ha

/-- A thread that has not been created is not asleep. -/
lemma Inv.notMem_waitq_of_fresh (h : s.Inv) (ht : t ∉ s.spawned) : t ∉ s.waitq.tree := by
  intro hmem
  have hwait : s.state t = .waiting := (h.ok t).timed.mp hmem
  rw [(h.fresh t ht).2] at hwait
  cases hwait

/-- The entities of the sleepers when a thread is created. -/
lemma entity_of_fresh (h : s.Inv) (ht : t ∉ s.spawned) (hkeys : SameKeys t s s') (u : Tid)
    (hu : u ∈ s.waitq.tree) : s'.waitq.entity u = s.waitq.entity u := by
  refine hkeys.wait u ?_
  rintro rfl
  exact h.notMem_waitq_of_fresh ht hu

/-- **Every action leaves the wait timer at the earliest wake-up time.** -/
theorem Act.armed {l : Label} (h : s.Inv) (ha : Act l s s') (harmed : s.WaitArmed) :
    s'.WaitArmed := by
  cases ha with
  | yields _ hy => exact hy.queues.armed harmed
  | sleeps _ _ _ hb => exact hb.armed
  | blocks _ hb => exact hb.armed
  | times _ _ _ => exact harmed.congr rfl rfl fun _ _ => rfl
  | wakes _ hr => exact hr.armed
  | sets _ _ _ hsets => exact hsets.queues.armed harmed
  | ticks _ _ _ _ ha _ => exact ha harmed
  | switches hsw =>
      exact harmed.congr (by rw [hsw.ktimers]) (by rw [hsw.waitq]) fun _ _ => by rw [hsw.waitq]
  | spawns ht hsp hk =>
      refine harmed.congr ?_ hsp.tree (entity_of_fresh h ht hsp.keys)
      rcases hk with heq | ⟨timing, -, hset, -⟩
      · rw [heq]
      · rw [(hset.frame.same_wait hset.wf (by simp)).entity]
        rfl
  | starts ht _ hk _ _ _ _ _ hkeys htree =>
      exact harmed.congr (by rw [hk]) htree (entity_of_fresh h ht hkeys)

lemma Path.armed {ls : List Label} (h : s.Inv) (hp : Path ls s s') (harmed : s.WaitArmed) :
    s'.WaitArmed := by
  induction hp with
  | nil => exact harmed
  | cons ha _ ih => exact ih (ha.inv h) (ha.armed h harmed)

/-! ### Sleepers -/

/-- A thread that is asleep after an action was asleep before or has just gone to sleep. -/
lemma Act.waiting_of {l : Label} (ha : Act l s s') (hu : s'.state u = .waiting) :
    (∃ elapsed, l = .sleeps u elapsed) ∨
      (s.state u = .waiting ∧ s'.waitq.entity u = s.waitq.entity u) := by
  have hself : ∀ {t : Tid} {p : Place}, s'.place = Function.update s.place t p →
      p.state ≠ .waiting → (∀ v ≠ t, s'.waitq.entity v = s.waitq.entity v) →
      s.state u = .waiting ∧ s'.waitq.entity u = s.waitq.entity u := by
    intro t p hplace hp hkeys
    rw [state_of_place hplace] at hu
    split at hu
    · exact absurd hu hp
    · rename_i hut
      exact ⟨hu, hkeys u hut⟩
  cases ha with
  | @yields _ s₁ t _ ha hy =>
      refine Or.inr ⟨?_, congrArg (fun w => w.entity u) hy.queues.waitq⟩
      have hplace : s₁.place = s.place := hy.moves.place.trans (Function.update_eq_self ..)
      exact (congrArg Place.state (congrFun hplace u)).symm.trans hu
  | @sleeps _ s₁ t elapsed x _ _ _ hb =>
      by_cases hut : u = t
      · exact Or.inl ⟨elapsed, by rw [hut]⟩
      · have hstate := state_of_place hb.moves.place u
        rw [if_neg hut] at hstate
        exact Or.inr ⟨hstate.symm.trans hu, hb.moves.keys.wait u hut⟩
  | blocks _ hb => exact Or.inr (hself hb.moves.place (by simp [Place.settled]) hb.moves.keys.wait)
  | times _ _ _ => exact Or.inr ⟨hu, rfl⟩
  | wakes _ hr => exact Or.inr (hself hr.moves.place (by simp [Place.settled]) hr.moves.keys.wait)
  | sets hm _ _ hsets =>
      have hplace : s'.place = s.place := hm.place.trans (Function.update_eq_self ..)
      exact Or.inr ⟨(congrArg Place.state (congrFun hplace u)).symm.trans hu,
        congrArg (fun w => w.entity u) hsets.queues.waitq⟩
  | ticks hw _ _ _ => exact Or.inr ⟨hw.waiting_of_waiting hu, congrFun hw.entity u⟩
  | switches hsw =>
      refine Or.inr ⟨?_, by rw [hsw.waitq]⟩
      rcases hsw.blocked u with heq | ⟨hb, -⟩
      · rw [← heq]
        exact hu
      · rw [hu] at hb
        cases hb
  | spawns _ hsp _ => exact Or.inr (hself hsp.place (by simp [Place.settled]) hsp.keys.wait)
  | starts _ _ _ _ _ _ _ hplace hkeys =>
      exact Or.inr (hself hplace (by simp [Place.settled]) hkeys.wait)

lemma Act.acting_of_sleeps {elapsed : ℕ} (ha : Act (.sleeps t elapsed) s s') : s.Acting t := by
  cases ha with
  | sleeps ha _ _ _ => exact ha

lemma Path.waiting_of {ls : List Label} (hp : Path ls s s')
    (hl : ∀ elapsed, .sleeps u elapsed ∉ ls) (hu : s'.state u = .waiting) :
    s.state u = .waiting ∧ s'.waitq.entity u = s.waitq.entity u := by
  induction hp with
  | nil => exact ⟨hu, rfl⟩
  | @cons s s₁ _ l ls ha hp ih =>
      obtain ⟨hu₁, hent⟩ := ih (fun e hmem => hl e (List.mem_cons_of_mem _ hmem)) hu
      rcases ha.waiting_of hu₁ with ⟨e, rfl⟩ | ⟨hu₀, hent₀⟩
      · exact absurd (List.mem_cons_self ..) (hl e)
      · exact ⟨hu₀, hent.trans hent₀⟩

end Sched

/-- Only `msleepyi` puts a thread to sleep. -/
lemma Kernel.eq_msleepyi_of_mem {k k' : Kernel α} {ev : Event α} {ls : List Label}
    (h : Labels k k' ev ls ∨ (ev.isQueueOp = true ∧ TurnLabels ev.elapsed ls)) {t : Tid}
    {elapsed : ℕ} (hmem : .sleeps t elapsed ∈ ls) :
    ∃ port ticksPerMs msec, ev = .msleepyi port ticksPerMs msec ∧ ls = [.sleeps t elapsed] := by
  rcases h with h | ⟨-, rfl | ⟨u, o, -, rfl⟩ | ⟨u, o, -, rfl⟩⟩
  · cases ev with
    | msleepyi port ticksPerMs msec =>
        rcases h with rfl | ⟨u, rfl⟩
        · cases hmem
        · rw [List.mem_singleton] at hmem
          exact ⟨port, ticksPerMs, msec, rfl, by rw [hmem]⟩
    | lock i port => rcases h with rfl | ⟨u, rfl | ⟨-, v, rfl⟩⟩ <;> simp at hmem
    | unlock i =>
        obtain ⟨ls₁, ls₂, rfl, rfl | ⟨-, u, rfl⟩, ⟨rfl, -⟩ | ⟨v, rfl⟩⟩ := h <;> simp at hmem
    | yieldyi port => rcases h with rfl | ⟨u, rfl⟩ <;> simp at hmem
    | setRtThreadStartTime startTime => rcases h with rfl | ⟨u, rfl⟩ <;> simp at hmem
    | take i port => rcases h with rfl | ⟨u, rfl⟩ <;> simp at hmem
    | give i => rcases h with ⟨rfl, -⟩ | ⟨u, rfl⟩ <;> simp at hmem
    | tick port fuel => rcases h with ⟨rfl, -⟩ | ⟨rfl, -⟩ <;> simp at hmem
    | _ =>
        rw [h] at hmem
        simp at hmem
  · cases hmem
  · simp at hmem
  · simp at hmem

/-! ### Runs -/

/-- A kernel with the time until which each thread has last asked to sleep. -/
structure Sleeps (α : Type) where
  kernel : Kernel α
  sleepsUntil : Tid → ℕ

namespace Sleeps

variable {c c' : Sleeps α} {ev : Event α} {k' : Kernel α} {reply : Reply α}

/-- The history after a step: `msleepyi` asks for a time after the clock reading at which the
elapsed interval has been charged. -/
def after (c : Sleeps α) (ev : Event α) (k' : Kernel α) : Sleeps α where
  kernel := k'
  sleepsUntil t :=
    match ev with
    | .msleepyi _ ticksPerMs msec =>
        if c.kernel.sched.current = some t then
          k'.sched.ktimers.nowTicks + satMul32 msec ticksPerMs
        else c.sleepsUntil t
    | _ => c.sleepsUntil t

/-- One step, at a time far from the maximum. -/
def Step (c c' : Sleeps α) : Prop :=
  ∃ ev k' reply, c.kernel.Enabled ev ∧ c.kernel.exec ev = .ok (k', reply) ∧ k'.sched.Early ∧
    c' = c.after ev k'

/-- The states of the runs with their history. -/
abbrev Reachable (c : Sleeps α) : Prop := Runs.Reach (fun c => c.kernel.Initial) Step c

structure Inv (c : Sleeps α) : Prop where
  kernel : c.kernel.Inv
  armed : c.kernel.sched.WaitArmed
  wakeAt : ∀ t, c.kernel.sched.state t = .waiting →
    (c.kernel.sched.waitq.entity t).wakeAt = c.sleepsUntil t

/-- The wake-up time that a sleep has asked for. -/
lemma wakeAt_msleepyi (h : c.Inv) {port : TimerPort} {ticksPerMs msec : ℕ}
    (hen : c.kernel.Enabled (.msleepyi port ticksPerMs msec))
    (hrun : c.kernel.exec (.msleepyi port ticksPerMs msec) = .ok (k', reply))
    (hearly : k'.sched.Early) {t : Tid} (ht : c.kernel.sched.current = some t)
    (hwait : k'.sched.state t = .waiting) :
    (k'.sched.waitq.entity t).wakeAt =
      k'.sched.ktimers.nowTicks + satMul32 msec ticksPerMs := by
  have hs := h.kernel.sched
  have hawake := hs.awake hen.1.1 t ht
  obtain ⟨s, hsleep, heq⟩ := bind_eq_ok.mp (hrun : c.kernel.lift _ = _)
  obtain ⟨rfl, -⟩ := Prod.mk.inj (Except.ok.inj heq)
  by_cases hkind : c.kernel.sched.kind t = .idle
  · -- the idle thread does not sleep
    rw [Sched.msleepyi_idle hkind ht] at hsleep
    obtain rfl := Except.ok.inj hsleep
    rw [show c.kernel.sched.state t = .waiting from hwait] at hawake
    cases hawake
  · obtain ⟨s₁, rfl, hb, hent⟩ := (Sched.msleepyi_spec hs.tidy hs.cfs hs.wait (hs.ok t) hkind hawake
      ht (hs.isCfs t ht) port ticksPerMs msec).value hsleep
    change (s₁.waitq.entity t).wakeAt = s₁.ktimers.nowTicks + _
    rw [hent, Sched.sleepEntity, ← hb.nowTicks]
    have hnow : s₁.ktimers.nowTicks < u64Max - 2 ^ 32 := hearly
    have hle : satMul32 msec ticksPerMs ≤ u32Max := min_le_right _ _
    simp only [satAdd64, u64Max, u32Max] at *
    omega

/-- **Every step keeps the wake-up times.** -/
theorem Inv.step (h : c.Inv) (hs : Step c c') : c'.Inv := by
  obtain ⟨ev, k', reply, hen, hrun, hearly, rfl⟩ := hs
  have hd := h.kernel.does hen hrun
  obtain ⟨ls, hpath, hl⟩ := hd.path
  refine ⟨hd.inv h.kernel, hpath.armed h.kernel.sched h.armed, fun t ht => ?_⟩
  replace ht : k'.sched.state t = .waiting := ht
  have hstays : (∀ elapsed, .sleeps t elapsed ∉ ls) →
      (k'.sched.waitq.entity t).wakeAt = c.sleepsUntil t := by
    intro hnot
    obtain ⟨hold, hent⟩ := hpath.waiting_of hnot ht
    rw [hent]
    exact h.wakeAt t hold
  by_cases hcur : ∃ port ticksPerMs msec, ev = .msleepyi port ticksPerMs msec ∧
      c.kernel.sched.current = some t
  · obtain ⟨port, ticksPerMs, msec, rfl, hc⟩ := hcur
    refine (wakeAt_msleepyi h hen hrun hearly hc ht).trans ?_
    simp only [after]
    rw [if_pos hc]
  · have hafter : (c.after ev k').sleepsUntil t = c.sleepsUntil t := by
      simp only [after]
      split
      · rename_i port ticksPerMs msec
        exact if_neg fun hc => hcur ⟨port, ticksPerMs, msec, rfl, hc⟩
      · rfl
    rw [hafter]
    refine hstays fun elapsed hmem => hcur ?_
    -- a thread that goes to sleep is the current one
    obtain ⟨port, ticksPerMs, msec, rfl, rfl⟩ := Kernel.eq_msleepyi_of_mem hl hmem
    exact ⟨port, ticksPerMs, msec, rfl, hpath.act.acting_of_sleeps.current⟩

lemma reachable_inv (h : c.Reachable) : c.Inv := by
  refine Runs.Reach.invariant (fun c hi => ?_) (fun _ _ hc hs => hc.step hs) h
  obtain ⟨layout, periodTicks, execTicks, hboot⟩ := hi.boot
  obtain ⟨hinv, -, hsp, -, -, -, harmed, -⟩ := Sched.boot_base hboot
  refine ⟨hi.inv, harmed, fun t ht => ?_⟩
  rw [(hinv.fresh t (by rw [hsp]; simp)).2] at ht
  cases ht

/-- What a tick does to the sleepers. -/
lemma tick_spec (h : c.Inv) {port : TimerPort} {fuel : ℕ}
    (hst : c.kernel.sched.started = true)
    (hrun : c.kernel.exec (.tick port fuel) = .ok (k', reply)) :
    (∀ t, c.kernel.sched.state t = .waiting → k'.sched.state t ≠ .waiting →
      c.sleepsUntil t ≤ k'.sched.ktimers.nowTicks) ∧
    (∀ t ∈ k'.sched.waitq.tree, k'.sched.ktimers.nowTicks < (k'.sched.waitq.entity t).wakeAt) ∧
    (∀ t, c.kernel.sched.state t = .suspended → k'.sched.state t = .suspended) := by
  have hs := h.kernel.sched
  obtain ⟨s, htick, heq⟩ := bind_eq_ok.mp (hrun : c.kernel.lift _ = _)
  obtain ⟨rfl, -⟩ := Prod.mk.inj (Except.ok.inj heq)
  obtain ⟨s₁, rfl, hw, -, hwait, -, harmed, hcalm⟩ :=
    (Sched.handleSchedTick_spec hs.tidy hs.ok hs.cfs hs.wait hst port fuel).value htick
  refine ⟨fun t ht ht' => ?_, fun t ht => ?_, fun t ht => ?_⟩
  · have hdue := (hw.woken t ht).due ht'
    rw [← hw.nowTicks] at hdue
    exact (h.wakeAt t ht).ge.trans hdue
  · exact hw.tidy.wakeAt_lt (harmed h.armed) hwait hcalm ht
  · have hne : c.kernel.sched.state t ≠ .waiting := by
      rw [ht]
      decide
    exact (congrArg Place.state (hw.other t hne)).trans ht

/-- **Timed sleep.**  A tick makes no sleeper ready before its time, leaves no sleeper whose time
has come, and wakes no suspended thread; and after every step the wait timer expires at the least
wake-up time of the timeout tree, or never when that tree is empty. -/
theorem reachable_sleeps (h : c.Reachable) :
    (∀ port fuel k' reply, c.kernel.sched.started = true →
      c.kernel.exec (.tick port fuel) = .ok (k', reply) →
      (∀ t, c.kernel.sched.state t = .waiting → k'.sched.state t ≠ .waiting →
        c.sleepsUntil t ≤ k'.sched.ktimers.nowTicks) ∧
      (∀ t ∈ k'.sched.waitq.tree,
        k'.sched.ktimers.nowTicks < (k'.sched.waitq.entity t).wakeAt) ∧
      (∀ t, c.kernel.sched.state t = .suspended → k'.sched.state t = .suspended)) ∧
    (c.kernel.sched.waitq.tree = [] →
      (c.kernel.sched.ktimers.entity .wait).expireAt = ktimerExpireNever) ∧
    (c.kernel.sched.waitq.tree ≠ [] → ∃ t ∈ c.kernel.sched.waitq.tree,
      (c.kernel.sched.ktimers.entity .wait).expireAt = (c.kernel.sched.waitq.entity t).wakeAt ∧
      ∀ u ∈ c.kernel.sched.waitq.tree,
        (c.kernel.sched.waitq.entity t).wakeAt ≤ (c.kernel.sched.waitq.entity u).wakeAt) := by
  have hinv := reachable_inv h
  have harmed : (c.kernel.sched.ktimers.entity .wait).expireAt = _ := hinv.armed
  refine ⟨fun port fuel k' reply hst hrun => tick_spec hinv hst hrun, fun hnil => ?_,
    fun hne => ?_⟩
  · rw [harmed, Sched.firstWakeAt, hnil]
    rfl
  · obtain ⟨t, l, htree⟩ := List.exists_cons_of_ne_nil hne
    have hfirst : c.kernel.sched.firstWakeAt = some (c.kernel.sched.waitq.entity t).wakeAt := by
      rw [Sched.firstWakeAt, htree]
      rfl
    refine ⟨t, by simp [htree], ?_, fun u hu => hinv.kernel.sched.tidy.firstWakeAt_le hfirst hu⟩
    rw [harmed, hfirst]
    rfl

/-! ### A sleep -/

/-- The state after a step. -/
def next (c : Sleeps α) (ev : Event α) : Option (Sleeps α) := do
  let k' ← c.kernel.next ev
  if k'.sched.Early then some (c.after ev k') else none

lemma next_step (h : c.next ev = some c') : Step c c' := by
  obtain ⟨k', hk', hif⟩ := Option.bind_eq_some_iff.mp h
  obtain ⟨hen, reply, hrun⟩ := Kernel.next_eq_some.mp hk'
  split at hif
  · rename_i hearly
    exact ⟨ev, k', reply, hen, hrun, hearly, (Option.some.inj hif).symm⟩
  · cases hif

/-- The run of given steps from boot. -/
def trial (evs : List (Event ℕ)) : Option (Sleeps ℕ) := do
  let k ← Kernel.trial Kernel.next []
  evs.foldlM next ⟨k, fun _ => 0⟩

lemma trial_reachable {evs : List (Event ℕ)} {c : Sleeps ℕ} (h : trial evs = some c) :
    c.Reachable := by
  simp only [trial, Kernel.trial, List.foldlM_nil, Option.bind_eq_bind,
    Option.bind_eq_some_iff] at h
  obtain ⟨k, ⟨k₀, hboot, hk⟩, hrun⟩ := h
  obtain rfl := Option.some.inj hk
  exact Runs.Reach.foldlM (fun _ _ _ => next_step) (.start (Kernel.booted_initial hboot)) hrun

/-- A thread sleeps for 100 ticks from time 150 on, and another one runs. -/
def sleepTrial : Option (Sleeps ℕ) := trial
  [.spawnCfs 1 10, .spawnCfs 2 30, .start 0, .tick ⟨some 99, some 0⟩ 8,
    .schedule ⟨some 99, some 0⟩, .msleepyi ⟨some 399, some 349⟩ 1 100,
    .schedule ⟨some 399, some 349⟩]

theorem reachable_sleeps_tick : ∃ c k', sleepTrial = some c ∧
    c.kernel.next (.tick ⟨some 119, some 0⟩ 8) = some k' ∧ c.kernel.sched.state 1 = .waiting ∧
    k'.sched.state 1 = .ready ∧ c.sleepsUntil 1 = 250 ∧ 250 ≤ k'.sched.ktimers.nowTicks := by
  have htest : sleepTrial.any (fun c => c.kernel.sched.started &&
      c.kernel.sched.state 1 == .waiting && c.sleepsUntil 1 == 250 &&
      (c.kernel.next (.tick ⟨some 119, some 0⟩ 8)).any fun k' => k'.sched.state 1 == .ready) =
      true := by decide +kernel
  obtain ⟨c, hc, htest⟩ := (Option.any_eq_true ..).mp htest
  simp only [Bool.and_eq_true, beq_iff_eq] at htest
  obtain ⟨⟨⟨hst, hwait⟩, huntil⟩, hlast⟩ := htest
  obtain ⟨k', hk', hready⟩ := (Option.any_eq_true ..).mp hlast
  obtain ⟨-, reply, hrun⟩ := Kernel.next_eq_some.mp hk'
  replace hready : k'.sched.state 1 = .ready := by simpa using hready
  have htick := (reachable_sleeps (trial_reachable hc)).1 _ _ _ _ hst hrun
  have hle := htick.1 1 hwait (by rw [hready]; decide)
  exact ⟨c, k', hc, hk', hwait, hready, huntil, huntil ▸ hle⟩

end Sleeps

end Rtsched

import Rtsched.Kernel.Invariant

/-!
The creation of the scheduler and of threads.

* `Sched.boot_base`: the scheduler after `init_ktimer_queue` and `init_cfs`.
* `Sched.spawnCfs_spec`, `Sched.spawnRt_spec`, `Sched.spawnMainThread_spec`: **a new thread starts
  at the place of a ready thread of its kind** and no other thread moves.
-/

namespace Rtsched

open Ordered Outcome

namespace Sched

variable {s s' : Sched} {t : Tid}

/-- `init_ktimer_queue` and `init_cfs` link the two system timers. -/
theorem boot_base {layout : Layout} {periodTicks execTicks : ℕ}
    (hboot : boot layout periodTicks execTicks = .ok s) :
    s.Inv ∧ s.current = none ∧ s.spawned = [] ∧ s.ktimers.nowTicks = 0 ∧ s.pendsv = false ∧
      s.waiters = (fun _ => []) ∧ s.WaitArmed ∧ s.runq = ⟨[], 0, fun _ => ⟨0, 0, 0⟩⟩ := by
  have h₀ : (newKtimers layout).Wf := by
    refine ⟨List.Pairwise.nil, List.Pairwise.nil, ?_, ?_, ?_, Nat.zero_le _⟩
    all_goals simp [newKtimers]
  have hnone : ∀ k, ¬ (newKtimers layout).Linked k := by simp [newKtimers, KTimers.Linked]
  obtain ⟨q₁, hins, h₁⟩ := KTimers.insert_spec h₀ (hnone .wait) (a := false) fun _ => rfl
  have hlinked : ∀ k, q₁.Linked k ↔ k = .wait := by
    intro k
    by_cases hk : k = .wait
    · rw [hk]
      exact iff_of_true h₁.linked_self rfl
    · exact iff_of_false (fun hl => hnone k ((h₁.frame.linked k hk).mp hl)) hk
  have hcfs : ¬ q₁.Linked .cfs := by simp [hlinked]
  have h₂ : (q₁.setEntity .cfs (cfsEntity periodTicks execTicks)).Wf :=
    h₁.wf.edit hcfs rfl rfl rfl (fun j hj => Function.update_of_ne hj ..) h₁.wf.now_le
  rw [boot, KTimers.enqueueInactive, hins, ok_bind, bind_eq_ok] at hboot
  obtain ⟨q, hq, hs⟩ := hboot
  obtain ⟨hq', hcfs', -⟩ := (KTimers.enqueueKtimer_spec h₂ hcfs (by simp)).value hq
  replace hcfs' : q.Linked .cfs := Or.inl hcfs'
  obtain rfl := Except.ok.inj hs
  have hl : ∀ k, k ≠ .cfs → (q.Linked k ↔ k = .wait) := by
    intro k hk
    rw [hq'.frame.linked k hk, ← hlinked k]
    rfl
  have hplace : ∀ u, (new q).place u = .free .idle .ready none := by
    intro u
    ext <;> simp [place, new, Place.settled, hl]
  refine ⟨⟨⟨⟨hq'.wf, List.Pairwise.nil, List.Pairwise.nil, List.nodup_nil,
    fun _ => List.Pairwise.nil⟩, fun u => ?_, hcfs', (hl _ (by simp)).mpr rfl, hq'.next, ?_, ?_, ?_,
    ?_, rfl, ?_, fun u _ => ⟨rfl, rfl⟩⟩, ?_⟩, rfl, rfl, hq'.nowTicks.trans h₁.nowTicks, rfl, rfl,
    ?_, rfl⟩
  · rw [hplace]
    exact Place.ok_free (fun _ => rfl) (by simp)
  case refine_8 =>
    -- the wait timer is created without an expiration
    change (q.entity .wait).expireAt = ktimerExpireNever
    rw [(hq'.frame.same_wait hq'.wf (by simp)).entity]
    simp [KTimers.setEntity, h₁.entity, newKtimers]
  all_goals simp [new]

/-! ### Creating threads -/

/-- The keys of the other threads are as before. -/
lemma initThread_keys (s : Sched) (t : Tid) (kind : ThreadKind) :
    SameKeys t s (s.initThread t kind) :=
  ⟨fun _ hu => Function.update_of_ne hu .., fun _ hu => Function.update_of_ne hu ..⟩

/-- A new control block is in no queue. -/
lemma initThread_spec (h : s.Base) (ht : t ∉ s.spawned) (kind : ThreadKind) :
    (s.initThread t kind).Tidy ∧
      (s.initThread t kind).place =
        Function.update s.place t
          ⟨kind, .ready, False, False, False, False, none, fun _ => False⟩ := by
  obtain ⟨hkind, hstate⟩ := h.fresh t ht
  have hq : t ∉ s.runq.tree := fun hmem => by
    have hcfs : s.kind t = .cfs := ((h.ok t).queued.mp hmem).1
    exact absurd (hcfs.symm.trans hkind) (by decide)
  have htimer : ¬ s.ktimers.Linked (.rt t) := fun hmem => by
    have hrt : s.kind t = .rt := ((h.ok t).timer.mp hmem).1
    exact absurd (hrt.symm.trans hkind) (by decide)
  have htimed : t ∉ s.waitq.tree := fun hmem => by
    have hwaiting : s.state t = .waiting := (h.ok t).timed.mp hmem
    exact absurd (hwaiting.symm.trans hstate) (by decide)
  have hparked : t ∉ s.waitq.suspended := fun hmem => by
    have hsusp : s.state t = .suspended := (h.ok t).parked.mp hmem
    exact absurd (hsusp.symm.trans hstate) (by decide)
  have hwaits : ∀ o, t ∉ s.waiters o := fun o hmem => by
    have hsusp : s.state t = .suspended := ((h.ok t).waits o hmem).1
    exact absurd (hsusp.symm.trans hstate) (by decide)
  refine ⟨⟨h.tidy.ktimers, h.tidy.runq, ?_, h.tidy.suspended, fun o => ?_⟩, ?_⟩
  · exact (setWaitEntity_spec h.tidy htimed ⟨0, none⟩).tidy.waitq
  · refine (h.tidy.waiters o).congr fun u hu v hv => ?_
    have hut : u ≠ t := fun heq => hwaits o (heq ▸ hu)
    have hvt : v ≠ t := fun heq => hwaits o (heq ▸ hv)
    simp [initThread, setWaitEntity, syncCmp, keyCmp, compareLex, compareOn, hut, hvt]
  · refine place_eq_update ?_ fun u hu => ?_
    · ext <;> simp [place, initThread, setWaitEntity, hq, htimer, htimed, hparked, hwaits]
    · ext <;> simp [place, initThread, setWaitEntity, hu]

/-- A step that creates the thread `t` and moves no other. -/
structure Spawns (kind : ThreadKind) (t : Tid) (s s' : Sched) : Prop where
  tidy : s'.Tidy
  place : s'.place = Function.update s.place t (.free kind .ready none)
  spawned : s'.spawned = t :: s.spawned
  cfs : s'.ktimers.Linked .cfs
  wait : s'.ktimers.Linked .wait
  next : s'.ktimers.next = s'.ktimers.active.head?
  current : s'.current = s.current
  currentIsCfs : s'.currentIsCfs = s.currentIsCfs
  idle : s'.idle = s.idle
  started : s'.started = s.started
  pendsv : s'.pendsv = s.pendsv
  keys : SameKeys t s s'
  tree : s'.waitq.tree = s.waitq.tree

namespace Spawns

variable {kind : ThreadKind}

lemma self (h : Spawns kind t s s') : s'.place t = .free kind .ready none := by
  rw [h.place, Function.update_self]

lemma other (h : Spawns kind t s s') {u : Tid} (hu : u ≠ t) : s'.place u = s.place u := by
  rw [h.place, Function.update_of_ne hu]

/-- Creating a thread keeps the invariant. -/
lemma inv (h : s.Inv) (ht : t ∉ s.spawned) (hs : Spawns kind t s s') : s'.Inv where
  tidy := hs.tidy
  ok u := by
    by_cases hu : u = t
    · rw [hu, hs.self]
      exact Place.ok_free (fun _ => rfl) (by simp)
    · rw [hs.other hu]
      exact h.ok u
  cfs := hs.cfs
  wait := hs.wait
  next := hs.next
  running u hu := by
    rw [hs.current]
    refine h.running u ?_
    by_cases hut : u = t
    · have hready : s'.state u = .ready := by
        rw [hut]
        exact congrArg Place.state hs.self
      rw [hready] at hu
      exact absurd hu (by decide)
    · exact (congrArg Place.state (hs.other hut)).symm.trans hu
  isCfs u hu := by
    rw [hs.current] at hu
    have hut : u ≠ t := fun heq => ht (heq ▸ h.spawned u hu)
    have hkind : s'.kind u = s.kind u := congrArg Place.kind (hs.other hut)
    rw [hs.currentIsCfs, hkind]
    exact h.isCfs u hu
  idle i hi := by
    rw [hs.idle] at hi
    obtain ⟨hkind, hmem⟩ := h.idle i hi
    have hit : i ≠ t := fun heq => ht (heq ▸ hmem)
    rw [hs.spawned]
    exact ⟨(congrArg Place.kind (hs.other hit)).trans hkind, List.mem_cons_of_mem _ hmem⟩
  hasIdle := by
    rw [hs.current, hs.idle]
    exact h.hasIdle
  started := by
    rw [hs.current, hs.started]
    exact h.started
  spawned u hu := by
    rw [hs.current] at hu
    rw [hs.spawned]
    exact List.mem_cons_of_mem _ (h.spawned u hu)
  fresh u hu := by
    rw [hs.spawned, List.mem_cons, not_or] at hu
    obtain ⟨hkind, hstate⟩ := h.fresh u hu.2
    exact ⟨(congrArg Place.kind (hs.other hu.1)).trans hkind,
      (congrArg Place.state (hs.other hu.1)).trans hstate⟩
  awake hpend u hu := by
    rw [hs.pendsv] at hpend
    rw [hs.current] at hu
    have hut : u ≠ t := fun heq => ht (heq ▸ h.spawned u hu)
    have hstate : s'.state u = s.state u := congrArg Place.state (hs.other hut)
    rw [hstate]
    exact h.awake hpend u hu

end Spawns

/-- **Specification of `CfsThreadBuilder::spawn`.** -/
theorem spawnCfs_spec (h : s.Base) (ht : t ∉ s.spawned) {priority : ℕ} (hp : priority ≠ 0) :
    Ends Fault.Benign (s.spawnCfs t priority) fun s' =>
      Spawns .cfs t s s' ∧ s'.ktimers = s.ktimers ∧
        (s.runq.setEntity t ⟨0, 0, priority⟩).enqueueThread t = .ok s'.runq := by
  obtain ⟨htidy, hplace⟩ := initThread_spec h ht .cfs
  have hself : (s.initThread t .cfs).place t =
      ⟨.cfs, .ready, False, False, False, False, none, fun _ => False⟩ := by
    rw [hplace, Function.update_self]
  have hmem : t ∉ (s.initThread t .cfs).runq.tree := by
    have hq : ¬ ((s.initThread t .cfs).place t).queued := by
      rw [hself]
      exact id
    exact hq
  obtain ⟨s₁, hset, h₁, hk₁, hr₁, hw₁, -⟩ := setState_spec (t := t) (x := .ready) htidy
    (ThreadState.canTransitionTo_ready _)
  rw [spawnCfs, if_neg hp]
  simp only [hset, ok_bind]
  have hmem₁ : t ∉ s₁.runq.tree := by rwa [hr₁]
  refine ((RunQueue.enqueueThread_spec (RunQueue.Ordered.setEntity h₁.tidy.runq hmem₁
    ⟨0, 0, priority⟩) hmem₁).named.weaken fun _ => Fault.benign_of_arithmetic).bind
      fun r ⟨hrun, hr, _⟩ => ?_
  have h₂ : Moves t { s₁.place t with queued := t ∈ r.tree } s₁ { s₁ with runq := r } :=
    moves_runq h₁.tidy hr.ordered fun u hu => by simp [hr.mem, hu, RunQueue.setEntity]
  have hk : s₁.ktimers = s.ktimers := hk₁
  refine ⟨⟨h₂.tidy, ?_, h₁.control.spawned, ?_, ?_, ?_, h₁.control.current,
    h₁.control.currentIsCfs, h₁.control.idle, h₁.control.started, h₁.control.pendsv,
    (initThread_keys s t .cfs).trans (h₁.trans h₂).keys, by rw [hw₁]; rfl⟩, hk, ?_⟩
  · have hmoves : Moves t (.free .cfs .ready none) (s.initThread t .cfs) { s₁ with runq := r } := by
      refine (h₁.trans h₂).congr ?_
      rw [h₁.self, hself]
      ext <;> simp [Place.settled, hr.mem]
    rw [hmoves.place, hplace, Function.update_idem]
  · simpa [hk] using h.cfs
  · simpa [hk] using h.wait
  · simpa [hk] using h.next
  · rw [hr₁] at hrun
    exact hrun

/-- A new RT thread sets its own timer only. -/
lemma initRtThread_same (s : Sched) (t : Tid) (timing : RtTiming) {k : Timer} (hk : k ≠ .rt t) :
    KTimers.Same s.ktimers (s.initRtThread t timing).ktimers k where
  entity := by simp [initRtThread, KTimers.setEntity, KTimers.setRuntime, hk]
  runtime := by
    cases k with
    | cfs | wait => rfl
    | rt u => exact Function.update_of_ne (fun hu => hk (congrArg _ hu)) ..
  active := Iff.rfl
  inactive := Iff.rfl

/-- **Specification of `RtThreadBuilder::spawn`.** -/
theorem spawnRt_spec (h : s.Base) (ht : t ∉ s.spawned) (timing : RtTiming) :
    Ends Fault.Benign (s.spawnRt t timing) fun s' =>
      Spawns .rt t s s' ∧
        KTimers.Settles (· = .rt t) (s.initRtThread t timing).ktimers s'.ktimers ∧
        .rt t ∈ s'.ktimers.active ∧ s'.runq = s.runq := by
  obtain ⟨htidy, hplace⟩ := initThread_spec h ht .rt
  have hself : (s.initThread t .rt).place t =
      ⟨.rt, .ready, False, False, False, False, none, fun _ => False⟩ := by
    rw [hplace, Function.update_self]
  have hnot : ¬ s.ktimers.Linked (.rt t) := by
    have hq : ¬ ((s.initThread t .rt).place t).timer := by
      rw [hself]
      exact id
    exact hq
  have hwf : (s.initRtThread t timing).ktimers.Wf :=
    h.tidy.ktimers.edit hnot rfl rfl rfl (fun j hj => Function.update_of_ne hj ..)
      h.tidy.ktimers.now_le
  have hnot' : ¬ (s.initRtThread t timing).ktimers.Linked (.rt t) := hnot
  rw [spawnRt]
  refine (KTimers.enqueueKtimer_spec hwf hnot' (by simp)).bind fun q ⟨hq, hact, _⟩ => ?_
  have hlinked : q.Linked (.rt t) := Or.inl hact
  have hl : ∀ k, k ≠ .rt t → (q.Linked k ↔ s.ktimers.Linked k) := fun k hk =>
    hq.frame.linked k hk
  refine ⟨⟨⟨hq.wf, htidy.runq, htidy.waitq, htidy.suspended, htidy.waiters⟩, ?_, rfl,
    (hl _ (by simp)).mpr h.cfs, (hl _ (by simp)).mpr h.wait, hq.next, rfl, rfl, rfl, rfl, rfl,
    ⟨(initThread_keys s t .rt).wait, (initThread_keys s t .rt).sync⟩, rfl⟩, hq, hact, rfl⟩
  refine place_eq_update ?_ fun u hu => ?_
  · have hinit := hself
    simp only [Sched.place, Place.mk.injEq] at hinit
    ext <;> simp_all [Sched.place, initRtThread, Place.settled, ThreadState.isBlocked]
  · have hinit : (s.initThread t .rt).place u = s.place u := by
      rw [hplace, Function.update_of_ne hu]
    rw [← hinit]
    ext <;> simp [Sched.place, initRtThread, initThread, setWaitEntity, hl (.rt u) (by simp [hu])]

/-- **Specification of `spawn_main_thread`:** the idle thread is created and runs. -/
theorem spawnMainThread_spec (h : s.Inv) (ht : t ∉ s.spawned) (hcur : s.current = none) :
    ∃ s', s.spawnMainThread t = .ok s' ∧ s'.Inv ∧ s'.ktimers = s.ktimers ∧
      s'.waiters = s.waiters ∧ s'.current = some t ∧ s'.pendsv = s.pendsv ∧
      s'.spawned = t :: s.spawned ∧
      s'.place = Function.update s.place t (.free .idle .running none) ∧
      SameKeys t s s' ∧ s'.waitq.tree = s.waitq.tree ∧ s'.runq = s.runq := by
  obtain ⟨htidy, hplace⟩ := initThread_spec h.toBase ht .idle
  have hspawns : Spawns .idle t s (s.initThread t .idle) := by
    refine ⟨htidy, ?_, rfl, h.cfs, h.wait, h.next, rfl, rfl, rfl, rfl, rfl,
      initThread_keys s t .idle, rfl⟩
    rw [hplace]
    congr 1
    ext <;> simp [Place.settled]
  have h₁ : (s.initThread t .idle).Inv := hspawns.inv h ht
  let s' : Sched := { s.initThread t .idle with
    idle := some t, state := Function.update (s.initThread t .idle).state t .running
    current := some t, currentIsCfs := false, started := true }
  have hstate : ∀ u, u ≠ t → s'.state u = (s.initThread t .idle).state u :=
    fun u hu => Function.update_of_ne hu ..
  have hkind : s'.kind t = .idle := Function.update_self ..
  have hplace' : s'.place = Function.update s.place t (.free .idle .running none) := by
    refine place_eq_update ?_ fun u hu => ?_
    · have hself := hspawns.self
      simp only [Sched.place, Place.settled, Place.mk.injEq] at hself
      ext <;> simp_all [s', Sched.place, Place.settled]
    · rw [← hspawns.other hu]
      ext <;> simp [s', Sched.place, hu]
  refine ⟨s', ?_, ?_, rfl, rfl, rfl, rfl, rfl, hplace',
    ⟨(initThread_keys s t .idle).wait, (initThread_keys s t .idle).sync⟩, rfl, rfl⟩
  · have hkind' : decide ((s.initThread t .idle).kind t = .cfs) = false := by
      rw [show (s.initThread t .idle).kind t = .idle from hkind]
      rfl
    have hset : setState { s.initThread t .idle with idle := some t } t .running =
        .ok { s.initThread t .idle with
          idle := some t, state := Function.update (s.initThread t .idle).state t .running } := by
      rw [setState, if_pos]
      have hready : (s.initThread t .idle).state t = .ready := Function.update_self ..
      change ((s.initThread t .idle).state t).canTransitionTo .running = true
      rw [hready]
      rfl
    rw [spawnMainThread]
    simp only [hset, ok_bind, hkind']
    rfl
  · exact
    { tidy := ⟨htidy.ktimers, htidy.runq, htidy.waitq, htidy.suspended, htidy.waiters⟩
      ok := fun u => by
        rw [hplace']
        by_cases hu : u = t
        · rw [hu, Function.update_self]
          exact Place.ok_free (fun _ => rfl) (by simp)
        · rw [Function.update_of_ne hu]
          exact h.ok u
      cfs := h.cfs
      wait := h.wait
      next := h.next
      running := fun u hu => by
        by_cases hut : u = t
        · rw [hut]
        · rw [hstate u hut] at hu
          have hnone : (s.initThread t .idle).current = some u := h₁.running u hu
          rw [show (s.initThread t .idle).current = s.current from rfl, hcur] at hnone
          exact absurd hnone (by simp)
      isCfs := fun u hu => by
        obtain rfl : t = u := by simpa [s'] using hu
        rw [hkind]
        rfl
      idle := fun i hi => by
        obtain rfl : t = i := by simpa [s'] using hi
        exact ⟨hkind, List.mem_cons_self ..⟩
      hasIdle := fun _ => rfl
      started := rfl
      spawned := fun u hu => by
        obtain rfl : t = u := by simpa [s'] using hu
        exact List.mem_cons_self ..
      fresh := fun u hu => by
        have hut : u ≠ t := fun heq => hu (heq ▸ List.mem_cons_self ..)
        rw [hstate u hut]
        exact h₁.fresh u hu
      awake := fun _ u hu => by
        obtain rfl : t = u := by simpa [s'] using hu
        rw [show s'.state t = .running from Function.update_self ..]
        rfl }

end Sched

end Rtsched

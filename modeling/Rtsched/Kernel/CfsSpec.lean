import Rtsched.Kernel.Serial

/-!
What the actions do to the CFS threads.

* `Sched.Awake`: a CFS thread that is not blocked.
* `Sched.CfsAct`: what an action does to the CFS threads and the run queue;
  `Sched.Act.cfsAct`: **every action does this**.
-/

namespace Rtsched

open Outcome

namespace Sched

variable {s s' : Sched} {t : Tid} {l : Label}

/-- The thread is a CFS thread that is not blocked. -/
def Awake (s : Sched) (t : Tid) : Prop := s.kind t = .cfs ∧ (s.state t).isBlocked = false

instance (s : Sched) : DecidablePred s.Awake := fun _ => inferInstanceAs (Decidable (_ ∧ _ = false))

/-- What an action does to the CFS threads and the run queue. -/
inductive CfsAct (l : Label) (s s' : Sched) : Prop
  /-- No CFS thread is concerned. -/
  | same (hrunq : s'.runq = s.runq) (hkind : ∀ u, s'.kind u = .cfs ↔ s.kind u = .cfs)
      (hawake : ∀ u, s'.Awake u ↔ s.Awake u)
      (hcur : ∀ c, s'.current = some c → s'.Awake c → s.current = some c)
  /-- A thread blocks. -/
  | drops {t : Tid} (ht : s.Awake t) (hrunq : s'.runq = s.runq.leave t) (hkind : s'.kind = s.kind)
      (hawake : ∀ u, s'.Awake u ↔ s.Awake u ∧ u ≠ t) (hcur : s'.current = s.current)
  /-- Blocked threads join the run queue one after the other. -/
  | joins {ts : List Tid} (hnodup : ts.Nodup) (hts : ∀ u ∈ ts, s.kind u = .cfs ∧ ¬ s.Awake u)
      (hrunq : ts.foldlM RunQueue.enqueueFromWaitq s.runq = .ok s'.runq) (hkind : s'.kind = s.kind)
      (hawake : ∀ u, s'.Awake u ↔ s.Awake u ∨ u ∈ ts) (hcur : s'.current = s.current)
  | switches {elapsed : ℕ} (hl : l = .switches) (h : Switches elapsed s s')
  | spawns {t : Tid} {priority : ℕ} (ht : t ∉ s.spawned) (hp : priority ≠ 0)
      (hrunq : (s.runq.setEntity t ⟨0, 0, priority⟩).enqueueThread t = .ok s'.runq)
      (hkind : ∀ u, s'.kind u = .cfs ↔ s.kind u = .cfs ∨ u = t)
      (hawake : ∀ u, s'.Awake u ↔ s.Awake u ∨ u = t) (hcur : s'.current = s.current)

/-- A thread that is not blocked is queued, or it runs. -/
lemma Inv.awake_iff (h : s.Inv) :
    s.Awake t ↔ t ∈ s.runq.tree ∨ (s.kind t = .cfs ∧ s.state t = .running) := by
  have hqueued : t ∈ s.runq.tree ↔ s.kind t = .cfs ∧ s.state t = .ready := (h.ok t).queued
  rw [hqueued, Awake]
  cases s.state t <;> simp [ThreadState.isBlocked]

/-- A thread that has not been created is not a CFS thread. -/
lemma Inv.not_awake_of_fresh (h : s.Inv) (ht : t ∉ s.spawned) : ¬ s.Awake t := by
  rintro ⟨hkind, -⟩
  rw [(h.fresh t ht).1] at hkind
  cases hkind

/-! ### Switching -/

namespace Switches

variable {elapsed : ℕ}

lemma awake_iff (hsw : Switches elapsed s s') (u : Tid) : s'.Awake u ↔ s.Awake u := by
  rw [Awake, Awake, hsw.kind]
  rcases hsw.blocked u with heq | ⟨hb', hb⟩
  · rw [heq]
  · rw [hb', hb]

/-- A switch keeps the priorities. -/
lemma priority (hsw : Switches elapsed s s') :
    s'.runq.prioritySum = s.runq.prioritySum ∧
      ∀ u, (s'.runq.entity u).priority = (s.runq.entity u).priority := by
  obtain ⟨r, ⟨c, -, hcharge⟩, hent, hsum⟩ := hsw.charged
  rw [hent, hsum]
  split at hcharge
  · obtain ⟨hsum', hprio, -⟩ := RunQueue.charge_keeps hcharge
    exact ⟨hsum', hprio⟩
  · rw [hcharge]
    exact ⟨rfl, fun _ => rfl⟩

/-- A switch charges the running thread only. -/
lemma vruntime (hsw : Switches elapsed s s') :
    ∃ c, s.current = some c ∧ (s.runq.entity c).vruntime ≤ (s'.runq.entity c).vruntime ∧
      (∀ u ≠ c, s'.runq.entity u = s.runq.entity u) ∧
      (¬ (s.kind c = .cfs ∧ s.state c = .running) → s'.runq.entity = s.runq.entity) := by
  obtain ⟨r, ⟨c, hc, hcharge⟩, hent, -⟩ := hsw.charged
  rw [hent]
  refine ⟨c, hc, ?_⟩
  split at hcharge
  · rename_i hcfs
    obtain ⟨-, -, hother, hle⟩ := RunQueue.charge_keeps hcharge
    exact ⟨hle, hother, fun hno => absurd hcfs hno⟩
  · rw [hcharge]
    exact ⟨le_rfl, fun _ _ => rfl, fun _ => rfl⟩

/-- A switch to a CFS thread is a switch to the one with the least virtual runtime. -/
lemma least (h : s.Inv) (hsw : Switches elapsed s s') {d : Tid} (hd : s'.current = some d)
    (hkind : s.kind d = .cfs) :
    ∀ u ∈ s'.runq.tree, (s'.runq.entity d).vruntime ≤ (s'.runq.entity u).vruntime := by
  by_cases hcfs : s.ktimers.next = some .cfs ∧ s.runq.tree ≠ []
  · obtain ⟨n, hn, -, hle⟩ := hsw.toCfs hcfs.1 hcfs.2
    rw [hn] at hd
    obtain rfl := Option.some.inj hd
    exact hle
  · -- otherwise the switch is to an RT thread or to the idle thread
    exfalso
    by_cases hrt : ∃ t, s.ktimers.next = some (.rt t)
    · obtain ⟨t, ht⟩ := hrt
      obtain ⟨n, hn, -, hnt⟩ := hsw.current
      rw [hn] at hd
      obtain rfl := Option.some.inj hd
      obtain rfl := hnt t ht
      have hactive : .rt n ∈ s.ktimers.active :=
        List.mem_of_mem_head? (h.next.symm.trans ht)
      have hkind' : s.kind n = .rt := ((h.ok n).timer.mp (Or.inl hactive)).1
      rw [hkind] at hkind'
      cases hkind'
    · have hidle : s'.current = s.idle :=
        hsw.toIdle (fun t ht => hrt ⟨t, ht⟩) fun hnext => by
          by_contra hne
          exact hcfs ⟨hnext, hne⟩
      have hkind' : s.kind d = .idle := (h.idle d (hidle.symm.trans hd)).1
      rw [hkind] at hkind'
      cases hkind'

end Switches

/-! ### Moving one thread -/

lemma kind_eq_of_place {p : Place} (hplace : s'.place = Function.update s.place t p)
    (hp : p.kind = s.kind t) : s'.kind = s.kind := by
  funext u
  rw [kind_of_place hplace]
  split
  · rename_i hut
    rw [hut, hp]
  · rfl

/-- The threads that are awake once one thread has moved. -/
lemma awake_of_place {p : Place} (hplace : s'.place = Function.update s.place t p) (u : Tid) :
    s'.Awake u ↔ if u = t then p.kind = .cfs ∧ p.state.isBlocked = false else s.Awake u := by
  rw [Awake, kind_of_place hplace, state_of_place hplace]
  split
  · exact Iff.rfl
  · exact Iff.rfl

/-- A step that moves a thread which is not a CFS thread. -/
lemma cfsAct_of_ne {p : Place} (hplace : s'.place = Function.update s.place t p)
    (hp : p.kind = s.kind t) (hne : s.kind t ≠ .cfs) (hrunq : s'.runq = s.runq)
    (hcur : s'.current = s.current) : CfsAct l s s' := by
  refine .same hrunq (fun u => by rw [kind_eq_of_place hplace hp]) (fun u => ?_) fun c hc _ => ?_
  · rw [awake_of_place hplace]
    split
    · rename_i hut
      rw [hp, hut]
      exact iff_of_false (fun hk => hne hk.1) fun hk => hne hk.1
    · exact Iff.rfl
  · rw [← hcur]
    exact hc

/-- A step that moves no thread. -/
lemma cfsAct_of_self (hplace : s'.place = Function.update s.place t (s.place t))
    (hrunq : s'.runq = s.runq) (hcur : s'.current = s.current) : CfsAct l s s' := by
  refine .same hrunq (fun u => by rw [kind_eq_of_place hplace rfl]) (fun u => ?_) fun c hc _ => ?_
  · rw [awake_of_place hplace]
    split
    · rename_i hut
      rw [hut]
      exact Iff.rfl
    · exact Iff.rfl
  · rw [← hcur]
    exact hc

/-- The current thread blocks. -/
lemma Blocks.cfsAct {p : Place} {elapsed : ℕ} (ha : s.Acting t)
    (hb : Blocks t p elapsed s s') (hp : p.kind = s.kind t) (hpb : p.state.isBlocked = true) :
    CfsAct l s s'.requestContextSwitch := by
  by_cases hkind : s.kind t = .cfs
  · refine .drops ⟨hkind, ha.awake⟩ (hb.runqCfs hkind)
      (kind_eq_of_place hb.moves.place hp) (fun u => ?_) hb.moves.control.current
    change s'.Awake u ↔ _
    rw [awake_of_place hb.moves.place, hpb]
    split
    · rename_i hut
      simp [hut]
    · rename_i hut
      simp [hut]
  · exact cfsAct_of_ne hb.moves.place hp hkind (hb.runq hkind) hb.moves.control.current

/-- A waiter is woken. -/
lemma Readies.cfsAct {ev : Option SyncType} (hr : Readies t ev s s')
    (hb : (s.state t).isBlocked = true) : CfsAct l s s'.requestContextSwitch := by
  by_cases hkind : s.kind t = .cfs
  · refine .joins (List.nodup_singleton t) (fun u hu => ?_) ?_
      (kind_eq_of_place hr.moves.place rfl) (fun u => ?_) hr.moves.control.current
    · obtain rfl := List.mem_singleton.mp hu
      exact ⟨hkind, fun hw => by rw [hw.2] at hb; cases hb⟩
    · rw [List.foldlM_cons, hr.runqCfs hkind]
      rfl
    · change s'.Awake u ↔ _
      rw [awake_of_place hr.moves.place, List.mem_singleton]
      split
      · rename_i hut
        exact iff_of_true ⟨hkind, rfl⟩ (Or.inr hut)
      · rename_i hut
        exact ⟨Or.inl, fun hu => hu.resolve_right hut⟩
  · exact cfsAct_of_ne hr.moves.place rfl hkind (hr.runq hkind) hr.moves.control.current

/-- A tick wakes threads. -/
lemma Woken.cfsAct {elapsed : ℕ} (hw : Woken elapsed (s.advanced elapsed) s') :
    CfsAct l s s'.requestContextSwitch := by
  obtain ⟨ts, hnodup, hmem, hrun⟩ := hw.runq
  have hkind : s'.kind = s.kind := funext hw.kind_eq
  refine .joins hnodup (fun u hu => ?_) hrun hkind (fun u => ?_) hw.control.current
  · obtain ⟨hcfs, hwait, -⟩ := (hmem u).mp hu
    refine ⟨hcfs, fun ha => ?_⟩
    have hb := ha.2
    rw [show s.state u = .waiting from hwait] at hb
    cases hb
  · change s'.Awake u ↔ _
    rw [hmem, Awake, Awake, hkind]
    by_cases hwait : s.state u = .waiting
    · have hstate : s'.state u = .waiting ∨ s'.state u = .ready := by
        rcases (hw.woken u hwait).place with hplace | hplace
        · exact Or.inl ((congrArg Place.state hplace).trans hwait)
        · exact Or.inr (congrArg Place.state hplace)
      have hold : (s.advanced elapsed).state u = .waiting := hwait
      have hkind' : (s.advanced elapsed).kind u = s.kind u := rfl
      rcases hstate with hstate | hstate
      · simp [hstate, hwait, ThreadState.isBlocked]
      · simp [hstate, hold, hkind', hwait, ThreadState.isBlocked]
    · have hstate : s'.state u = s.state u := congrArg Place.state (hw.other u hwait)
      have hold : (s.advanced elapsed).state u ≠ .waiting := hwait
      simp [hstate, hold]

/-- **What an action does to the CFS threads.** -/
theorem Act.cfsAct (h : s.Inv) (ha : Act l s s') : CfsAct l s s' := by
  cases ha with
  | yields _ hy => exact cfsAct_of_self hy.moves.place hy.queues.runq hy.moves.control.current
  | sleeps ha hx _ hb => exact hb.cfsAct ha rfl hx
  | blocks ha hb => exact hb.cfsAct ha rfl rfl
  | times _ _ _ => exact .same rfl (fun _ => Iff.rfl) (fun _ => Iff.rfl) fun _ hc _ => hc
  | @wakes _ _ t o ht hr =>
      have hsusp : s.state t = .suspended := ((h.ok t).waits o ht).1
      exact hr.cfsAct (by rw [hsusp]; rfl)
  | sets hm _ _ hsets => exact cfsAct_of_self hm.place hsets.queues.runq hm.control.current
  | ticks hw _ _ _ => exact hw.cfsAct
  | switches hsw => exact .switches rfl hsw
  | @spawns _ _ t kind ht hsp _ hrunq hcfs =>
      have hfresh := (h.fresh t ht).1
      by_cases hkind : kind = .cfs
      · subst hkind
        obtain ⟨priority, hp, hrun⟩ := hcfs rfl
        refine .spawns ht hp hrun (fun u => ?_) (fun u => ?_) hsp.current
        · rw [kind_of_place hsp.place]
          split
          · rename_i hut
            exact iff_of_true rfl (Or.inr hut)
          · rename_i hut
            exact ⟨Or.inl, fun hu => hu.resolve_right hut⟩
        · rw [awake_of_place hsp.place]
          split
          · rename_i hut
            exact iff_of_true ⟨rfl, rfl⟩ (Or.inr hut)
          · rename_i hut
            exact ⟨Or.inl, fun hu => hu.resolve_right hut⟩
      · refine .same (hrunq hkind) (fun u => ?_) (fun u => ?_) fun c hc _ => ?_
        · rw [kind_of_place hsp.place]
          split
          · rename_i hut
            rw [hut, hfresh]
            exact iff_of_false hkind (by simp)
          · exact Iff.rfl
        · rw [awake_of_place hsp.place]
          split
          · rename_i hut
            rw [hut]
            exact iff_of_false (fun hk => hkind hk.1) (h.not_awake_of_fresh ht)
          · exact Iff.rfl
        · rw [← hsp.current]
          exact hc
  | @starts _ _ t ht _ _ hc hc' _ _ hplace _ _ hrunq =>
      have hfresh := (h.fresh t ht).1
      refine .same hrunq (fun u => ?_) (fun u => ?_) fun c hcur hw => ?_
      · rw [kind_of_place hplace]
        split
        · rename_i hut
          rw [hut, hfresh]
          exact iff_of_false (by simp [Place.settled]) (by simp)
        · exact Iff.rfl
      · rw [awake_of_place hplace]
        split
        · rename_i hut
          rw [hut]
          exact iff_of_false (fun hk => by cases hk.1) (h.not_awake_of_fresh ht)
        · exact Iff.rfl
      · -- the idle thread is not a CFS thread
        rw [hc'] at hcur
        obtain rfl := Option.some.inj hcur
        rw [awake_of_place hplace, if_pos rfl] at hw
        cases hw.1

end Sched

end Rtsched

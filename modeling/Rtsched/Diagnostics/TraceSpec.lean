import Rtsched.Diagnostics.Trace
import Rtsched.Kernel.SyncSpec

/-!
What the tracing hooks record in one step.

* `Sched.Wakes`: the wake-ups that are recorded are those of the threads that a step unblocks.
* `Trace.schedule_events`: a context switch is recorded if and only if the current thread changes.
* `Kernel.Records`, `Trace.exec_records`: **what a step of the kernel records**.
-/

namespace Rtsched

open Outcome Logged

/-! ### What a step should record -/

namespace Sched

variable {s s' s'' : Sched} {t : Tid} {ts : List Tid} {l l' : List TraceEvent}

/-- A thread as it is recorded. -/
def traceThread (s : Sched) (t : Tid) : TraceThread := ⟨t, s.kind t = .cfs⟩

/-- The wake-ups of some threads, one after the other. -/
def wakeupEvents (s : Sched) (ts : List Tid) : List TraceEvent :=
  ts.map fun t => .wakeup (s.traceThread t)

/-- The context switch between two states, if one thread has left the processor to another. -/
def switchEvents (s s' : Sched) : List TraceEvent :=
  match s.current, s'.current with
  | some c, some c' =>
      if c = c' then [] else [.contextSwitch (some (s.traceThread c)) (s.traceThread c')]
  | _, _ => []

/-- The threads that are blocked before a step and not after it. -/
structure Unblocks (ts : List Tid) (s s' : Sched) : Prop where
  nodup : ts.Nodup
  mem : ∀ t, t ∈ ts ↔ (s.state t).isBlocked = true ∧ (s'.state t).isBlocked = false

/-- The events are the wake-ups of the threads that a step unblocks. -/
def Wakes (l : List TraceEvent) (s s' : Sched) : Prop :=
  ∃ ts, Unblocks ts s s' ∧ l = s.wakeupEvents ts

lemma wakes_nil (h : ∀ t, (s.state t).isBlocked = true → (s'.state t).isBlocked = true) :
    Wakes [] s s' := by
  refine ⟨[], ⟨List.nodup_nil, fun t => ?_⟩, rfl⟩
  refine iff_of_false List.not_mem_nil fun ⟨hb, hb'⟩ => ?_
  rw [h t hb] at hb'
  cases hb'

lemma wakes_refl (s : Sched) : Wakes [] s s := wakes_nil fun _ => id

/-- The states and the kinds before the step are all that counts. -/
lemma Wakes.congr (h : Wakes l s s'') (hstate : s.state = s'.state) (hkind : s.kind = s'.kind) :
    Wakes l s' s'' := by
  obtain ⟨ts, hts, rfl⟩ := h
  refine ⟨ts, ⟨hts.nodup, fun t => ?_⟩, ?_⟩
  · rw [hts.mem, hstate]
  · simp only [wakeupEvents, traceThread, hkind]

/-- A switch is recorded only when the current thread changes. -/
lemma switchEvents_eq_nil (h : s'.current = s.current) : switchEvents s s' = [] := by
  rw [switchEvents, h]
  cases s.current with
  | none => rfl
  | some c => exact if_pos rfl

end Sched

/-! ### Actions that are not recorded -/

/-- The action selects the current thread. -/
def Label.selects : Label → Bool
  | switches | starts _ => true
  | _ => false

/-- The action wakes no thread and selects none. -/
def Label.isQuiet : Label → Bool
  | wakes _ _ | ticks _ | switches | starts _ => false
  | _ => true

lemma Label.selects_of_isQuiet {l : Label} (h : l.isQuiet = true) : l.selects = false := by
  cases l <;> first | rfl | cases h

namespace Sched

variable {s s' : Sched} {t : Tid} {l : Label} {ls : List Label}

lemma Act.isBlocked (h : s.Inv) (ha : Act l s s') (hl : l.isQuiet = true)
    (ht : (s.state t).isBlocked = true) : (s'.state t).isBlocked = true := by
  -- a thread that is moved becomes blocked, or it keeps its place
  have hother : ∀ {u : Tid} {p : Place}, s'.place = Function.update s.place u p →
      (u = t → p.state.isBlocked = true) → (s'.state t).isBlocked = true := by
    intro u p hplace hp
    rw [state_of_place hplace]
    split
    · rename_i heq
      exact hp heq.symm
    · exact ht
  cases ha with
  | yields _ hy => exact hother hy.moves.place fun heq => heq ▸ ht
  | sleeps _ hx _ hb => exact hother hb.moves.place fun _ => hx
  | blocks _ hb _ => exact hother hb.moves.place fun _ => rfl
  | times _ _ _ => exact ht
  | sets hm _ _ _ => exact hother hm.place fun heq => heq ▸ ht
  | spawns hnew hs _ _ _ =>
      refine hother hs.place fun heq => ?_
      rw [← heq, (h.fresh _ hnew).2] at ht
      cases ht
  | wakes _ _ _ => cases hl
  | ticks _ _ _ _ _ _ => cases hl
  | switches _ => cases hl
  | starts _ _ _ _ _ _ _ _ _ _ _ => cases hl

/-- An action that selects no thread leaves the current thread and the idle thread alone. -/
lemma Act.still (ha : Act l s s') (hl : l.selects = false) :
    s'.current = s.current ∧ s'.idle = s.idle := by
  cases ha with
  | yields _ hy => exact ⟨hy.moves.control.current, hy.moves.control.idle⟩
  | sleeps _ _ _ hb => exact ⟨hb.moves.control.current, hb.moves.control.idle⟩
  | blocks _ hb _ => exact ⟨hb.moves.control.current, hb.moves.control.idle⟩
  | times _ _ _ => exact ⟨rfl, rfl⟩
  | wakes _ hr _ => exact ⟨hr.moves.control.current, hr.moves.control.idle⟩
  | sets hm _ _ _ => exact ⟨hm.control.current, hm.control.idle⟩
  | ticks hw _ _ _ _ _ => exact ⟨hw.control.current, hw.control.idle⟩
  | switches _ => cases hl
  | spawns _ hsp _ _ _ => exact ⟨hsp.current, hsp.idle⟩
  | starts _ _ _ _ _ _ _ _ _ _ _ => cases hl

lemma Path.still (hp : Path ls s s') (hls : ∀ l ∈ ls, l.selects = false) :
    s'.current = s.current ∧ s'.idle = s.idle := by
  induction hp with
  | nil => exact ⟨rfl, rfl⟩
  | @cons s s₁ s' l ls ha _ ih =>
      obtain ⟨hcur, hidle⟩ := ih fun l' hl' => hls l' (List.mem_cons_of_mem _ hl')
      obtain ⟨hcur₁, hidle₁⟩ := ha.still (hls l (List.mem_cons_self ..))
      exact ⟨hcur.trans hcur₁, hidle.trans hidle₁⟩

/-- Actions that wake no thread and select none. -/
lemma Path.quiet (h : s.Inv) (hp : Path ls s s') (hls : ∀ l ∈ ls, l.isQuiet = true) :
    Wakes [] s s' ∧ s'.current = s.current := by
  have hblocked : ∀ t, (s.state t).isBlocked = true → (s'.state t).isBlocked = true := by
    induction hp with
    | nil => exact fun _ => id
    | @cons s s₁ s' l ls ha _ ih =>
        exact fun t ht => ih (ha.inv h) (fun l' hl' => hls l' (List.mem_cons_of_mem _ hl')) t
          (ha.isBlocked h (hls l (List.mem_cons_self ..)) ht)
  exact ⟨wakes_nil hblocked, (hp.still fun l hl => Label.selects_of_isQuiet (hls l hl)).1⟩

end Sched

/-! ### What a part of a step leaves alone -/

namespace Sched

variable {s s' s'' : Sched} {t : Tid} {x : ThreadState} {elapsed : ℕ}

/-- The kinds of the threads, the wait queue and the current thread are as before. -/
structure Steady (s s' : Sched) : Prop where
  kind : s'.kind = s.kind
  waitq : s'.waitq = s.waitq
  current : s'.current = s.current

namespace Steady

lemma refl (s : Sched) : Steady s s := ⟨rfl, rfl, rfl⟩

lemma trans (h : Steady s s') (h' : Steady s' s'') : Steady s s'' :=
  ⟨h'.kind.trans h.kind, h'.waitq.trans h.waitq, h'.current.trans h.current⟩

end Steady

lemma setState_steady (h : s.setState t x = .ok s') : Steady s s' := by
  rw [setState] at h
  split at h
  · obtain rfl := Except.ok.inj h
    exact ⟨rfl, rfl, rfl⟩
  · cases h

lemma readyUnlessBlocked_steady (h : s.readyUnlessBlocked t = .ok s') : Steady s s' := by
  rw [readyUnlessBlocked] at h
  split at h
  · obtain rfl := Except.ok.inj h
    exact .refl s
  · exact setState_steady h

lemma requeueCurrentCfsThreadBeforeIdle_steady
    (h : s.requeueCurrentCfsThreadBeforeIdle = .ok s') : Steady s s' := by
  rw [requeueCurrentCfsThreadBeforeIdle] at h
  split at h
  · split at h
    · obtain rfl := Except.ok.inj h
      exact .refl s
    · split at h
      · cases h
      · obtain ⟨s₁, hset, h⟩ := bind_eq_ok.mp h
        obtain ⟨r, -, h⟩ := bind_eq_ok.mp h
        obtain rfl := Except.ok.inj h
        exact (setState_steady hset).trans ⟨rfl, rfl, rfl⟩
  · obtain rfl := Except.ok.inj h
    exact .refl s

lemma requeueCurrent_steady (h : s.requeueCurrent t = .ok s') : Steady s s' := by
  rw [requeueCurrent] at h
  split at h
  · obtain rfl := Except.ok.inj h
    exact .refl s
  · obtain ⟨s₁, hset, h⟩ := bind_eq_ok.mp h
    refine (setState_steady hset).trans ?_
    split at h
    · obtain ⟨r, -, h⟩ := bind_eq_ok.mp h
      obtain rfl := Except.ok.inj h
      exact ⟨rfl, rfl, rfl⟩
    · obtain rfl := Except.ok.inj h
      exact .refl s₁

lemma chargeCurrent_steady (h : s.chargeCurrent t elapsed = .ok s') : Steady s s' := by
  rw [chargeCurrent] at h
  split at h
  · obtain ⟨r, -, h⟩ := bind_eq_ok.mp h
    obtain rfl := Except.ok.inj h
    exact ⟨rfl, rfl, rfl⟩
  · obtain rfl := Except.ok.inj h
    exact .refl s

lemma wakeTimed_steady (h : s.wakeTimed t elapsed = .ok s') : Steady s s' := by
  rw [wakeTimed] at h
  split at h
  · rw [enqueueRunqFromWaitq] at h
    split at h
    · cases h
    · split at h
      · cases h
      · obtain ⟨s₁, hset, h⟩ := bind_eq_ok.mp h
        obtain ⟨r, -, h⟩ := bind_eq_ok.mp h
        obtain rfl := Except.ok.inj h
        exact (setState_steady hset).trans ⟨rfl, rfl, rfl⟩
  · obtain ⟨q, -, h⟩ := bind_eq_ok.mp h
    obtain rfl := Except.ok.inj h
    exact ⟨rfl, rfl, rfl⟩
  · obtain rfl := Except.ok.inj h
    exact .refl s

lemma removeWaitThread_kind (h : s.removeWaitThread t = .ok s') : s'.kind = s.kind := by
  rw [removeWaitThread] at h
  split at h
  · cases h
  · split at h
    · obtain ⟨l, -, h⟩ := bind_eq_ok.mp h
      obtain rfl := Except.ok.inj h
      rfl
    · obtain ⟨l, -, h⟩ := bind_eq_ok.mp h
      obtain rfl := Except.ok.inj h
      rfl

end Sched

namespace Trace

variable {s s' : Sched} {c t next : Tid} {l : List TraceEvent} {elapsed : ℕ}

lemma returns_recordWakeup {u : Unit} :
    Returns (recordWakeup s (some t)) u l ↔ l = s.wakeupEvents [t] :=
  returns_record

lemma wakeupEvents_congr (h : s'.kind = s.kind) (ts : List Tid) :
    s'.wakeupEvents ts = s.wakeupEvents ts := by
  simp only [Sched.wakeupEvents, Sched.traceThread, h]

/-! ### The scheduler -/

/-- A switch to a thread is recorded if it is not the current one. -/
lemma returns_recordContextSwitch (hc : s.current = some c) (hc' : s'.current = some next)
    {u : Unit} :
    Returns (recordContextSwitch s s.current (some next)) u l ↔ l = s.switchEvents s' := by
  simp only [recordContextSwitch, Sched.switchEvents, hc, hc', Option.some.injEq]
  split
  · rw [returns_pure]
    exact and_iff_right rfl
  · exact returns_record

lemma switchEvents_congr {s₁ : Sched} (h : Sched.Steady s s₁) :
    s₁.switchEvents s' = s.switchEvents s' := by
  simp only [Sched.switchEvents, Sched.traceThread, h.kind, h.current]

lemma switchToCfsThread_events (hc : s.current = some c)
    (hr : Returns (switchToCfsThread s next) s' l) : l = s.switchEvents s' := by
  obtain ⟨_, l₁, l₂, hrec, hsw, rfl⟩ := returns_bind.mp hr
  obtain ⟨hrun, rfl⟩ := returns_lift.mp hsw
  obtain ⟨s₁, -, hrun⟩ := bind_eq_ok.mp hrun
  obtain ⟨s₂, -, hrun⟩ := bind_eq_ok.mp hrun
  obtain rfl := Except.ok.inj hrun
  rw [List.append_nil]
  exact (returns_recordContextSwitch hc rfl).mp hrec

lemma switchToIdleThread_events (hc : s.current = some c)
    (hr : Returns (switchToIdleThread s) s' l) : l = s.switchEvents s' := by
  rw [switchToIdleThread] at hr
  cases hi : s.idle with
  | none =>
      simp only [hi, returns_pure] at hr
      obtain ⟨rfl, rfl⟩ := hr
      exact (Sched.switchEvents_eq_nil rfl).symm
  | some i =>
      simp only [hi] at hr
      obtain ⟨_, l₁, l₂, hrec, hsw, rfl⟩ := returns_bind.mp hr
      obtain ⟨hrun, rfl⟩ := returns_lift.mp hsw
      rw [Sched.switchToIdleThread, hi] at hrun
      obtain ⟨s₁, -, hrun⟩ := bind_eq_ok.mp hrun
      obtain ⟨s₂, -, hrun⟩ := bind_eq_ok.mp hrun
      obtain rfl := Except.ok.inj hrun
      rw [List.append_nil]
      exact (returns_recordContextSwitch hc rfl).mp hrec

lemma switchToIdleThreadWithCurrentRequeued_events (hc : s.current = some c)
    (hr : Returns (switchToIdleThreadWithCurrentRequeued s) s' l) : l = s.switchEvents s' := by
  obtain ⟨s₁, hreq, hr⟩ := returns_lift_bind.mp hr
  have hsteady := Sched.requeueCurrentCfsThreadBeforeIdle_steady hreq
  rw [← switchEvents_congr hsteady]
  exact switchToIdleThread_events (hsteady.current.trans hc) hr

lemma runPopped_events (hc : s.current = some c) (hr : Returns (runPopped s c next) s' l) :
    l = s.switchEvents s' := by
  rw [runPopped] at hr
  split at hr
  · rename_i hcfs
    split at hr
    · exact switchToCfsThread_events hc hr
    · rename_i hblocked
      split at hr
      · cases (returns_lift.mp hr).1
      · rename_i hsame
        split at hr
        · rename_i hlt
          obtain ⟨_, l₁, l₂, hrec, hsw, rfl⟩ := returns_bind.mp hr
          obtain ⟨hrun, rfl⟩ := returns_lift.mp hsw
          rw [Sched.runPopped, if_pos hcfs, if_neg hblocked, if_neg hsame, if_pos hlt] at hrun
          obtain ⟨s₁, -, hrun⟩ := bind_eq_ok.mp hrun
          obtain ⟨q, -, hrun⟩ := bind_eq_ok.mp hrun
          obtain ⟨s₂, -, hrun⟩ := bind_eq_ok.mp hrun
          obtain rfl := Except.ok.inj hrun
          rw [List.append_nil]
          exact (returns_recordContextSwitch hc rfl).mp hrec
        · rename_i hle
          obtain ⟨hsw, rfl⟩ := returns_lift.mp hr
          rw [Sched.runPopped, if_pos hcfs, if_neg hblocked, if_neg hsame, if_neg hle] at hsw
          obtain ⟨q, -, hsw⟩ := bind_eq_ok.mp hsw
          obtain rfl := Except.ok.inj hsw
          exact (Sched.switchEvents_eq_nil rfl).symm
  · obtain ⟨s₁, hready, hr⟩ := returns_lift_bind.mp hr
    have hsteady := Sched.readyUnlessBlocked_steady hready
    rw [← switchEvents_congr hsteady]
    exact switchToCfsThread_events (hsteady.current.trans hc) hr

lemma switchToRtThread_events (hc : s.current = some c)
    (hr : Returns (switchToRtThread s c next) s' l) : l = s.switchEvents s' := by
  obtain ⟨s₁, hreq, hr⟩ := returns_lift_bind.mp hr
  have hsteady := Sched.requeueCurrent_steady hreq
  rw [← switchEvents_congr hsteady]
  obtain ⟨_, l₁, l₂, hrec, hsw, rfl⟩ := returns_bind.mp hr
  obtain ⟨s₂, -, hsw⟩ := returns_lift_bind.mp hsw
  obtain ⟨rfl, rfl⟩ := returns_pure.mp hsw
  rw [List.append_nil]
  exact (returns_recordContextSwitch (hsteady.current.trans hc) rfl).mp hrec

lemma pickNext_events (hc : s.current = some c) (hr : Returns (pickNext s c) s' l) :
    l = s.switchEvents s' := by
  rw [pickNext] at hr
  split at hr
  · exact switchToIdleThreadWithCurrentRequeued_events hc hr
  · split at hr
    · split at hr
      · exact switchToIdleThreadWithCurrentRequeued_events hc hr
      · refine (runPopped_events ?_ hr).trans ?_
        · exact hc
        · rfl
    · exact switchToIdleThreadWithCurrentRequeued_events hc hr
  · cases (returns_lift.mp hr).1
  · exact switchToRtThread_events hc hr

/-- **A context switch is recorded if and only if the current thread changes.** -/
theorem schedule_events {port : TimerPort} (hr : Returns (schedule s port) s' l) :
    l = s.switchEvents s' := by
  rw [schedule] at hr
  cases hc : s.current with
  | none =>
      rw [hc] at hr
      cases (returns_lift.mp hr).1
  | some c =>
      simp only [hc] at hr
      obtain ⟨s₁, hcharge, hr⟩ := returns_lift_bind.mp hr
      have hsteady := Sched.chargeCurrent_steady hcharge
      obtain ⟨s₂, l₁, l₂, hpick, hend, rfl⟩ := returns_bind.mp hr
      obtain ⟨rfl, rfl⟩ := returns_pure.mp hend
      rw [List.append_nil, pickNext_events (hsteady.current.trans hc) hpick,
        switchEvents_congr hsteady]
      rfl

/-! ### Ticks -/

/-- The wake-ups are those of the threads that leave the timeout tree, in its order. -/
lemma wakeWaitThread_events {n : ℕ} (hr : Returns (wakeWaitThread elapsed n s) s' l) :
    ∃ ts, s.waitq.tree = ts ++ s'.waitq.tree ∧ s'.kind = s.kind ∧ l = s.wakeupEvents ts := by
  induction n generalizing s l with
  | zero =>
      obtain ⟨rfl, rfl⟩ := returns_pure.mp hr
      exact ⟨[], rfl, rfl, rfl⟩
  | succ n ih =>
      rw [wakeWaitThread] at hr
      cases htree : s.waitq.tree with
      | nil =>
          simp only [htree, returns_pure] at hr
          obtain ⟨rfl, rfl⟩ := hr
          exact ⟨[], htree.symm, rfl, rfl⟩
      | cons t ts =>
          simp only [htree] at hr
          split at hr
          · obtain ⟨s₁, hset, hr⟩ := returns_lift_bind.mp hr
            obtain ⟨_, l₁, l₂, hrec, hr₂, rfl⟩ := returns_bind.mp hr
            obtain ⟨s₂, htimed, hr₂⟩ := returns_lift_bind.mp hr₂
            have h₁ := Sched.setState_steady hset
            have h₂ := h₁.trans (Sched.wakeTimed_steady htimed)
            obtain ⟨ts', htree', hkind, rfl⟩ := ih hr₂
            rw [h₂.waitq] at htree'
            replace htree' : ts = ts' ++ s'.waitq.tree := htree'
            refine ⟨t :: ts', ?_, hkind.trans h₂.kind, ?_⟩
            · rw [htree', List.cons_append]
            · rw [returns_recordWakeup.mp hrec, wakeupEvents_congr h₁.kind,
                wakeupEvents_congr h₂.kind]
              rfl
          · obtain ⟨rfl, rfl⟩ := returns_pure.mp hr
            exact ⟨[], htree.symm, rfl, rfl⟩

lemma dispatchTimer_events {k : Timer} (hr : Returns (dispatchTimer s k elapsed) s' l) :
    ∃ ts, s.waitq.tree = ts ++ s'.waitq.tree ∧ s'.kind = s.kind ∧ l = s.wakeupEvents ts := by
  have hplain : s.dispatchTimer k elapsed = .ok s' → l = [] → k ≠ .wait →
      ∃ ts, s.waitq.tree = ts ++ s'.waitq.tree ∧ s'.kind = s.kind ∧ l = s.wakeupEvents ts := by
    rintro hk rfl hwait
    have hsteady : s'.waitq = s.waitq ∧ s'.kind = s.kind := by
      unfold Sched.dispatchTimer at hk
      split at hk
      · exact absurd rfl hwait
      · obtain ⟨q, -, hk⟩ := bind_eq_ok.mp hk
        obtain rfl := Except.ok.inj hk
        exact ⟨rfl, rfl⟩
      · split at hk
        · cases hk
        · obtain ⟨q, -, hk⟩ := bind_eq_ok.mp hk
          obtain rfl := Except.ok.inj hk
          exact ⟨rfl, rfl⟩
    exact ⟨[], by rw [hsteady.1, List.nil_append], hsteady.2, rfl⟩
  cases k with
  | wait =>
      obtain ⟨s₁, l₁, l₂, hwake, hend, rfl⟩ := returns_bind.mp hr
      obtain ⟨q, -, hend⟩ := returns_lift_bind.mp hend
      obtain ⟨rfl, rfl⟩ := returns_pure.mp hend
      rw [List.append_nil]
      obtain ⟨ts, htree, hkind, rfl⟩ := wakeWaitThread_events hwake
      exact ⟨ts, htree, hkind, rfl⟩
  | cfs => exact hplain (returns_lift.mp hr).1 (returns_lift.mp hr).2 (by decide)
  | rt t => exact hplain (returns_lift.mp hr).1 (returns_lift.mp hr).2 (by simp)

lemma dispatchExpired_events {n : ℕ} (hr : Returns (dispatchExpired elapsed n s) s' l) :
    ∃ ts, s.waitq.tree = ts ++ s'.waitq.tree ∧ s'.kind = s.kind ∧ l = s.wakeupEvents ts := by
  induction n generalizing s l with
  | zero => cases (returns_lift.mp hr).1
  | succ n ih =>
      rw [dispatchExpired] at hr
      split at hr
      · obtain ⟨rfl, rfl⟩ := returns_pure.mp hr
        exact ⟨[], rfl, rfl, rfl⟩
      · split at hr
        · obtain ⟨q, -, hr⟩ := returns_lift_bind.mp hr
          obtain ⟨s₁, l₁, l₂, hturn, hrest, rfl⟩ := returns_bind.mp hr
          obtain ⟨ts, htree, hkind, rfl⟩ := dispatchTimer_events hturn
          obtain ⟨ts', htree', hkind', rfl⟩ := ih hrest
          refine ⟨ts ++ ts', ?_, hkind'.trans hkind, ?_⟩
          · rw [List.append_assoc, ← htree']
            exact htree
          · rw [wakeupEvents_congr hkind]
            exact (List.map_append ..).symm
        · obtain ⟨rfl, rfl⟩ := returns_pure.mp hr
          exact ⟨[], rfl, rfl, rfl⟩

/-- A tick records the wake-ups of the threads that leave the timeout tree, in its order. -/
lemma handleSchedTick_events {port : TimerPort} {fuel : ℕ}
    (hr : Returns (handleSchedTick s port fuel) s' l) :
    ∃ ts, s.waitq.tree = ts ++ s'.waitq.tree ∧ l = s.wakeupEvents ts := by
  rw [handleSchedTick] at hr
  split at hr
  · obtain ⟨s₁, l₁, l₂, hdis, hend, rfl⟩ := returns_bind.mp hr
    obtain ⟨rfl, rfl⟩ := returns_pure.mp hend
    rw [List.append_nil]
    obtain ⟨ts, htree, -, rfl⟩ := dispatchExpired_events hdis
    exact ⟨ts, htree, rfl⟩
  · obtain ⟨rfl, rfl⟩ := returns_pure.mp hr
    exact ⟨[], rfl, rfl⟩

/-- The threads that leave the timeout tree in a tick are those that it unblocks. -/
lemma unblocks_of_ticks {ts : List Tid} (h : s.Inv) (ha : Sched.Act (.ticks elapsed) s s')
    (htree : s.waitq.tree = ts ++ s'.waitq.tree) : Sched.Unblocks ts s s' := by
  have hnodup : (ts ++ s'.waitq.tree).Nodup := htree ▸ h.tidy.waitq.nodup
  refine ⟨hnodup.of_append_left, fun t => ?_⟩
  have hin : t ∈ s.waitq.tree ↔ s.state t = .waiting := (h.ok t).timed
  have hin' : t ∈ s'.waitq.tree ↔ s'.state t = .waiting := ((ha.inv h).ok t).timed
  have hmem : t ∈ ts ↔ s.state t = .waiting ∧ s'.state t ≠ .waiting := by
    rw [← hin, ne_eq, ← hin', htree, List.mem_append]
    refine ⟨fun ht => ⟨Or.inl ht, fun ht' => ?_⟩, fun hp => hp.1.resolve_right hp.2⟩
    exact List.disjoint_of_nodup_append hnodup ht ht'
  rw [hmem]
  cases ha with
  | @ticks _ s₁ _ hw _ _ _ _ _ =>
      change _ ∧ s₁.state t ≠ .waiting ↔ _ ∧ (s₁.state t).isBlocked = false
      by_cases hwait : s.state t = .waiting
      · have hplace := (hw.woken t hwait).place
        rcases hplace with hsame | hready
        · have hstate : s₁.state t = .waiting := (congrArg Place.state hsame).trans hwait
          simp [hwait, hstate, ThreadState.isBlocked]
        · have hstate : s₁.state t = .ready := congrArg Place.state hready
          simp [hwait, hstate, ThreadState.isBlocked]
      · have hstate : s₁.state t = s.state t := congrArg Place.state (hw.other t hwait)
        rw [hstate]
        refine iff_of_false (fun hno => hwait hno.1) fun hno => ?_
        obtain ⟨hb, hb'⟩ := hno
        rw [hb] at hb'
        cases hb'

/-! ### Waking by an object -/

lemma enqueueKtimerqFromWaitq_events (hkind : s.kind t = .rt)
    (hr : Returns (enqueueKtimerqFromWaitq s t) s' l) : l = s.wakeupEvents [t] := by
  rw [enqueueKtimerqFromWaitq, if_neg (not_not.mpr hkind)] at hr
  obtain ⟨s₁, hrem, hr⟩ := returns_lift_bind.mp hr
  obtain ⟨s₂, hset, hr⟩ := returns_lift_bind.mp hr
  obtain ⟨_, l₁, l₂, hrec, hend, rfl⟩ := returns_bind.mp hr
  obtain ⟨q, -, hend⟩ := returns_lift_bind.mp hend
  obtain ⟨-, rfl⟩ := returns_lift.mp hend
  rw [List.append_nil, returns_recordWakeup.mp hrec,
    wakeupEvents_congr (Sched.setState_steady hset).kind,
    wakeupEvents_congr (Sched.removeWaitThread_kind hrem)]

lemma wakeWaiter_events (hkind : s.kind t ≠ .idle) (hr : Returns (wakeWaiter s t) s' l) :
    l = s.wakeupEvents [t] := by
  rw [wakeWaiter] at hr
  cases hk : s.kind t with
  | idle => exact absurd hk hkind
  | rt =>
      simp only [hk] at hr
      exact enqueueKtimerqFromWaitq_events hk hr
  | cfs =>
      simp only [hk] at hr
      obtain ⟨s₁, hrem, hr⟩ := returns_lift_bind.mp hr
      obtain ⟨_, l₁, l₂, hrec, hend, rfl⟩ := returns_bind.mp hr
      obtain ⟨s₂, -, hend⟩ := returns_lift_bind.mp hend
      obtain ⟨-, rfl⟩ := returns_lift.mp hend
      rw [List.append_nil, returns_recordWakeup.mp hrec,
        wakeupEvents_congr (Sched.removeWaitThread_kind hrem)]

/-- Waking the first waiter of an object records its wake-up. -/
lemma wakeFirst_records (h : s.Inv) {o : WaitObject} {r : Sched × Option Tid}
    (hr : Returns (wakeFirst s o) r l) : Sched.Wakes l s r.1 ∧ r.1.current = s.current := by
  have hrun : s.wakeFirst o = .ok r := (wakeFirst_result o).symm.trans hr.1
  obtain ⟨⟨s₁, w⟩, hpop, hr⟩ := returns_lift_bind.mp hr
  obtain ⟨s₂, l₁, l₂, hwake, hend, rfl⟩ := returns_bind.mp hr
  obtain ⟨rfl, rfl⟩ := returns_pure.mp hend
  rw [List.append_nil]
  rcases (Sched.wakeFirst_act h o).value hrun with ⟨hnil, heq⟩ | ⟨t, heq, hhead, hact⟩
  · obtain ⟨rfl, rfl⟩ := Prod.mk.inj heq
    obtain ⟨-, rfl⟩ := returns_pure.mp hwake
    exact ⟨Sched.wakes_refl _, rfl⟩
  · obtain rfl : w = some t := heq
    have ht : t ∈ s.waiters o := List.mem_of_mem_head? hhead
    have hsusp : s.state t = .suspended := ((h.ok t).waits o ht).1
    have hkind : s.kind t ≠ .idle := (h.ok t).kind_ne_idle (by
      change (s.state t).isBlocked = true
      rw [hsusp]
      rfl)
    have hkind₁ : s₁.kind = s.kind := by
      rw [Sched.popWaitingThread] at hpop
      split at hpop
      · cases hpop
      · split at hpop
        · obtain ⟨rfl, -⟩ := Prod.mk.inj (Except.ok.inj hpop)
          rfl
        · cases hpop
    obtain ⟨s₃, l₃, l₄, hwaiter, hend, rfl⟩ := returns_bind.mp hwake
    obtain ⟨rfl, rfl⟩ := returns_pure.mp hend
    rw [List.append_nil, wakeWaiter_events (hkind₁ ▸ hkind) hwaiter, wakeupEvents_congr hkind₁]
    refine ⟨⟨[t], ⟨List.nodup_singleton t, fun u => ?_⟩, rfl⟩, (hact.still rfl).1⟩
    rw [List.mem_singleton, hact.state_wakes]
    by_cases hut : u = t
    · simp [hut, hsusp, ThreadState.isBlocked]
    · simp [hut]

end Trace

/-! ### The steps -/

section Steps

variable {α : Type} {k k' : Kernel α} {ev : Event α} {reply : Reply α} {l : List TraceEvent}

/-- The yield of the current thread in `yieldyi`; the idle thread does not yield. -/
def Sched.yieldEvents (s : Sched) : Event α → List TraceEvent
  | .yieldyi port =>
      match s.current with
      | some t =>
          if s.kind t = .idle then []
          else [.yield (s.traceThread t) port.elapsedTicksSinceCurrentReload]
      | none => []
  | _ => []

/-- What a step should record: the yield of its thread, the change of the current thread, and the
wake-ups of the threads that it unblocks. -/
def Kernel.Records (k : Kernel α) (ev : Event α) (k' : Kernel α) (l : List TraceEvent) : Prop :=
  ∃ l', Sched.Wakes l' k.sched k'.sched ∧
    l = k.sched.yieldEvents ev ++ k.sched.switchEvents k'.sched ++ l'

namespace Trace

/-- A step that only wakes threads. -/
lemma records_of_wakes (hy : k.sched.yieldEvents ev = []) (hw : Sched.Wakes l k.sched k'.sched)
    (hc : k'.sched.current = k.sched.current) : k.Records ev k' l :=
  ⟨l, hw, by rw [hy, Sched.switchEvents_eq_nil hc]; rfl⟩

/-- What `try_send` wakes and records; a full queue wakes no thread. -/
lemma trySend_records (h : k.sched.Inv) {i : ℕ} {x : α} {r : Kernel α × Reply α}
    (hr : Returns (trySend k i x) r l) :
    Sched.Wakes l k.sched r.1.sched ∧ r.1.sched.current = k.sched.current ∧
      (r.2 = .err .full → r.1 = k ∧ l = []) := by
  obtain ⟨pushed, -, hr⟩ := returns_lift_bind.mp hr
  cases pushed with
  | none =>
      obtain ⟨rfl, rfl⟩ := returns_pure.mp hr
      exact ⟨Sched.wakes_refl _, rfl, fun _ => ⟨rfl, rfl⟩⟩
  | some q =>
      obtain ⟨p, l₁, l₂, hwake, hend, rfl⟩ := returns_bind.mp hr
      obtain ⟨rfl, rfl⟩ := returns_pure.mp hend
      rw [List.append_nil]
      obtain ⟨hw, hc⟩ := wakeFirst_records h hwake
      exact ⟨hw, hc, fun hfull => by cases hfull⟩

/-- What `try_receive` wakes and records; an empty queue wakes no thread. -/
lemma tryReceive_records (h : k.sched.Inv) {i : ℕ} {r : Kernel α × Reply α}
    (hr : Returns (tryReceive k i) r l) :
    Sched.Wakes l k.sched r.1.sched ∧ r.1.sched.current = k.sched.current ∧
      (r.2 = .err .empty → r.1 = k ∧ l = []) := by
  obtain ⟨popped, -, hr⟩ := returns_lift_bind.mp hr
  cases popped with
  | none =>
      obtain ⟨rfl, rfl⟩ := returns_pure.mp hr
      exact ⟨Sched.wakes_refl _, rfl, fun _ => ⟨rfl, rfl⟩⟩
  | some p =>
      obtain ⟨p, l₁, l₂, hwake, hend, rfl⟩ := returns_bind.mp hr
      obtain ⟨rfl, rfl⟩ := returns_pure.mp hend
      rw [List.append_nil]
      obtain ⟨hw, hc⟩ := wakeFirst_records h hwake
      exact ⟨hw, hc, fun hempty => by cases hempty⟩

/-- A thread that is parked, or refused, unblocks no other. -/
lemma block_wakes (h : k.sched.Inv) (call : Call α) {canBlock : Bool} {port : TimerPort}
    (hpend : canBlock = true → k.sched.pendsv = false)
    (hr : k.block call.object call canBlock port = .ok (k', reply)) :
    Sched.Wakes [] k.sched k'.sched ∧ k'.sched.current = k.sched.current := by
  rcases (Kernel.block_spec h call hpend port).value hr with ⟨status, heq⟩ | ⟨t, -, -, hp⟩
  · obtain ⟨rfl, -⟩ := Prod.mk.inj heq
    exact ⟨Sched.wakes_refl _, rfl⟩
  · exact (Sched.Path.single hp.act).quiet h fun l hl => List.mem_singleton.mp hl ▸ rfl

lemma send_records (h : k.sched.Inv) {i : ℕ} {x : α} {canBlock : Bool} {port : TimerPort}
    (hpend : canBlock = true → k.sched.pendsv = false)
    (hr : Returns (send k i x canBlock port) (k', reply) l) :
    Sched.Wakes l k.sched k'.sched ∧ k'.sched.current = k.sched.current := by
  obtain ⟨⟨k₁, reply₁⟩, l₁, l₂, htry, hend, rfl⟩ := returns_bind.mp hr
  obtain ⟨hw, hc, hfull⟩ := trySend_records h htry
  simp only at hend
  split at hend
  · obtain ⟨rfl, rfl⟩ := hfull rfl
    obtain ⟨hblock, rfl⟩ := returns_lift.mp hend
    exact block_wakes h (.send i x) hpend hblock
  · obtain ⟨heq, rfl⟩ := returns_pure.mp hend
    obtain ⟨rfl, -⟩ := Prod.mk.inj heq
    rw [List.append_nil]
    exact ⟨hw, hc⟩

lemma receive_records (h : k.sched.Inv) {i : ℕ} {canBlock : Bool} {port : TimerPort}
    (hpend : canBlock = true → k.sched.pendsv = false)
    (hr : Returns (receive k i canBlock port) (k', reply) l) :
    Sched.Wakes l k.sched k'.sched ∧ k'.sched.current = k.sched.current := by
  obtain ⟨⟨k₁, reply₁⟩, l₁, l₂, htry, hend, rfl⟩ := returns_bind.mp hr
  obtain ⟨hw, hc, hempty⟩ := tryReceive_records h htry
  simp only at hend
  split at hend
  · obtain ⟨rfl, rfl⟩ := hempty rfl
    obtain ⟨hblock, rfl⟩ := returns_lift.mp hend
    exact block_wakes h (.receive i) hpend hblock
  · obtain ⟨heq, rfl⟩ := returns_pure.mp hend
    obtain ⟨rfl, -⟩ := Prod.mk.inj heq
    rw [List.append_nil]
    exact ⟨hw, hc⟩

lemma give_records (h : k.sched.Inv) {i : SemaphoreId} (hr : Returns (give k i) (k', reply) l) :
    Sched.Wakes l k.sched k'.sched ∧ k'.sched.current = k.sched.current := by
  obtain ⟨⟨s, w⟩, l₁, l₂, hwake, hend, rfl⟩ := returns_bind.mp hr
  have hs : k'.sched = s ∧ l₂ = [] := by
    simp only at hend
    split at hend
    · obtain ⟨heq, rfl⟩ := returns_pure.mp hend
      exact ⟨congrArg (fun r => r.1.sched) heq.symm, rfl⟩
    · split at hend
      · obtain ⟨heq, rfl⟩ := returns_pure.mp hend
        exact ⟨congrArg (fun r => r.1.sched) heq.symm, rfl⟩
      · obtain ⟨heq, rfl⟩ := returns_pure.mp hend
        exact ⟨congrArg (fun r => r.1.sched) heq.symm, rfl⟩
  obtain ⟨rfl, rfl⟩ := hs
  rw [List.append_nil]
  exact wakeFirst_records h hwake

lemma unlock_records (h : k.sched.Inv) {i : ℕ} {t : Tid} (hc : k.sched.current = some t)
    (howner : (k.mutex i).owner = some t) (hr : Returns (unlock k i) (k', reply) l) :
    Sched.Wakes l k.sched k'.sched ∧ k'.sched.current = k.sched.current := by
  rw [unlock, if_neg (not_not.mpr (howner.trans hc.symm))] at hr
  obtain ⟨k₁, hrestore, hr⟩ := returns_lift_bind.mp hr
  rw [hc] at hrestore
  have ha := Kernel.restoreOwnerDeadline_adjusts h hrestore
  obtain ⟨⟨s, w⟩, l₁, l₂, hwake, hend, rfl⟩ := returns_bind.mp hr
  obtain ⟨heq, rfl⟩ := returns_pure.mp hend
  obtain ⟨rfl, -⟩ := Prod.mk.inj heq
  rw [List.append_nil]
  obtain ⟨hw, hcur⟩ := wakeFirst_records (ha.inv h) hwake
  refine ⟨hw.congr (funext ha.state) (funext fun u => congrArg Place.kind (congrFun ha.place u)),
    hcur.trans ?_⟩
  rcases ha.sched with heq | ⟨u, hact⟩
  · rw [heq]
  · exact (hact.still rfl).1

/-- The steps that are not queue operations and whose actions wake no thread and select none. -/
lemma quiet_of_labels (h : k.Inv) (hd : k.Does ev k' reply) (hq : ev.isQueueOp = false)
    (hls : ∀ ls, Kernel.Labels k k' ev ls → ∀ l ∈ ls, l.isQuiet = true) :
    Sched.Wakes [] k.sched k'.sched ∧ k'.sched.current = k.sched.current := by
  obtain ⟨ls, hpath, hl | ⟨hop, -⟩⟩ := hd.path
  · exact hpath.quiet h.sched (hls ls hl)
  · rw [hq] at hop
    cases hop

lemma yieldThread_events {s s' : Sched} {t : Tid} {port : TimerPort} (hc : s.current = some t)
    (hr : Returns (yieldThread s t port) s' l) :
    l = if s.kind t = .idle then []
      else [.yield (s.traceThread t) port.elapsedTicksSinceCurrentReload] := by
  rw [yieldThread] at hr
  split at hr
  · rename_i hnone
    have hkind : s.kind t = .idle := by
      cases hk : s.kind t <;> simp [Sched.threadSchedulerKtimer, hk] at hnone ⊢
    rw [if_pos hkind]
    exact (returns_pure.mp hr).2
  · rename_i k hsome
    have hkind : s.kind t ≠ .idle := by
      intro hk
      simp [Sched.threadSchedulerKtimer, hk] at hsome
    obtain ⟨q, -, hr⟩ := returns_lift_bind.mp hr
    obtain ⟨_, l₁, l₂, hrec, hend, rfl⟩ := returns_bind.mp hr
    obtain ⟨-, rfl⟩ := returns_pure.mp hend
    simp only [recordYield, hc] at hrec
    rw [if_neg hkind, List.append_nil]
    exact returns_record.mp hrec

lemma yieldyi_events {s s' : Sched} {port : TimerPort} (hr : Returns (yieldyi s port) s' l) :
    l = s.yieldEvents (.yieldyi port : Event α) := by
  rw [yieldyi] at hr
  cases hc : s.current with
  | none =>
      rw [hc] at hr
      cases (returns_lift.mp hr).1
  | some t =>
      simp only [hc] at hr
      simp only [Sched.yieldEvents, hc]
      exact yieldThread_events hc hr

/-- **What a step of the kernel records**: the yield of its thread, the change of the current
thread, and the wake-ups of exactly the threads that it unblocks. -/
theorem exec_records (h : k.Inv) (hen : k.Enabled ev)
    (hr : Returns (exec k ev) (k', reply) l) : k.Records ev k' l := by
  have hrun : k.exec ev = .ok (k', reply) := (exec_result k ev).symm.trans hr.1
  have hd := h.does hen hrun
  have hquiet : ev.isQueueOp = false → k.sched.yieldEvents ev = [] → l = [] →
      (∀ ls, Kernel.Labels k k' ev ls → ∀ l ∈ ls, l.isQuiet = true) → k.Records ev k' l := by
    rintro hq hy rfl hls
    obtain ⟨hw, hc⟩ := quiet_of_labels h hd hq hls
    exact records_of_wakes hy hw hc
  cases ev with
  | yieldyi port =>
      obtain ⟨hw, hc⟩ := quiet_of_labels h hd rfl fun ls hl => by
        rcases hl with rfl | ⟨t, rfl⟩ <;> simp [Label.isQuiet]
      obtain ⟨s, l₁, l₂, hyield, hend, rfl⟩ := returns_bind.mp hr
      obtain ⟨-, rfl⟩ := returns_pure.mp hend
      refine ⟨[], hw, ?_⟩
      rw [yieldyi_events (α := α) hyield, Sched.switchEvents_eq_nil hc]
      simp
  | msleepyi port ticksPerMs msec =>
      refine hquiet rfl rfl (returns_lift.mp hr).2 fun ls hl => ?_
      rcases hl with rfl | ⟨t, rfl⟩ <;> simp [Label.isQuiet]
  | setRtThreadStartTime startTime =>
      refine hquiet rfl rfl (returns_lift.mp hr).2 fun ls hl => ?_
      rcases hl with rfl | ⟨t, rfl⟩ <;> simp [Label.isQuiet]
  | tryTake i =>
      refine hquiet rfl rfl (returns_lift.mp hr).2 fun ls hl => ?_
      obtain rfl : ls = [] := hl
      simp
  | take i port =>
      refine hquiet rfl rfl (returns_lift.mp hr).2 fun ls hl => ?_
      rcases hl with rfl | ⟨t, rfl⟩ <;> simp [Label.isQuiet]
  | give i =>
      obtain ⟨hw, hc⟩ := give_records h.sched hr
      exact records_of_wakes rfl hw hc
  | tryLock i =>
      refine hquiet rfl rfl (returns_lift.mp hr).2 fun ls hl => ?_
      obtain rfl : ls = [] := hl
      simp
  | lock i port =>
      refine hquiet rfl rfl (returns_lift.mp hr).2 fun ls hl => ?_
      rcases hl with rfl | ⟨t, rfl | ⟨-, u, rfl⟩⟩ <;> simp [Label.isQuiet]
  | unlock i =>
      obtain ⟨t, howner⟩ := Option.isSome_iff_exists.mp hen.2.1
      obtain ⟨hw, hc⟩ := unlock_records h.sched (hen.2.2.symm.trans howner) howner hr
      exact records_of_wakes rfl hw hc
  | trySend i x =>
      obtain ⟨hw, hc, -⟩ := trySend_records h.sched hr
      exact records_of_wakes rfl hw hc
  | tryReceive i =>
      obtain ⟨hw, hc, -⟩ := tryReceive_records h.sched hr
      exact records_of_wakes rfl hw hc
  | send i x canBlock port =>
      obtain ⟨hw, hc⟩ := send_records h.sched (fun hb => (hen hb).1) hr
      exact records_of_wakes rfl hw hc
  | receive i canBlock port =>
      obtain ⟨hw, hc⟩ := receive_records h.sched (fun hb => (hen hb).1) hr
      exact records_of_wakes rfl hw hc
  | retry port =>
      obtain ⟨hpend, t, hcur, hsome⟩ := hen
      obtain ⟨call, hcall⟩ := Option.isSome_iff_exists.mp hsome
      have hr' : Returns (retry k port) (k', reply) l := hr
      rw [retry] at hr'
      simp only [hcur, hcall] at hr'
      cases call with
      | send i x =>
          obtain ⟨hw, hc⟩ := send_records (k := k.setCall t none) h.sched (fun _ => hpend) hr'
          exact records_of_wakes rfl hw hc
      | receive i =>
          obtain ⟨hw, hc⟩ := receive_records (k := k.setCall t none) h.sched (fun _ => hpend) hr'
          exact records_of_wakes rfl hw hc
  | tick port fuel =>
      obtain ⟨s, l₁, l₂, htick, hend, rfl⟩ := returns_bind.mp hr
      obtain ⟨heq, rfl⟩ := returns_pure.mp hend
      obtain ⟨rfl, -⟩ := Prod.mk.inj heq
      rw [List.append_nil]
      obtain ⟨ts, htree, rfl⟩ := handleSchedTick_events htick
      obtain ⟨ls, hpath, (⟨rfl, -⟩ | ⟨rfl, -⟩) | ⟨hop, -⟩⟩ := hd.path
      · obtain rfl : s = k.sched := hpath.eq_of_nil
        obtain rfl : ts = [] := by simpa using htree
        exact records_of_wakes rfl (Sched.wakes_refl _) rfl
      · have hact := hpath.act
        exact records_of_wakes rfl ⟨ts, unblocks_of_ticks h.sched hact htree, rfl⟩
          ((hact.still rfl).1)
      · cases hop
  | schedule port =>
      obtain ⟨s, l₁, l₂, hsched, hend, rfl⟩ := returns_bind.mp hr
      obtain ⟨heq, rfl⟩ := returns_pure.mp hend
      obtain ⟨rfl, -⟩ := Prod.mk.inj heq
      have hsw := h.switches hen hrun
      refine ⟨[], Sched.wakes_nil fun t ht => ?_, ?_⟩
      · rcases hsw.blocked t with hstate | ⟨-, hno⟩
        · change (s.state t).isBlocked = true
          rw [show s.state t = k.sched.state t from hstate]
          exact ht
        · rw [hno] at ht
          cases ht
      · rw [schedule_events hsched]
        simp [Sched.yieldEvents]
  | spawnCfs t priority =>
      refine hquiet rfl rfl (returns_lift.mp hr).2 fun ls hl => ?_
      obtain rfl : ls = [.spawns t .cfs] := hl
      simp [Label.isQuiet]
  | spawnRt t timing =>
      refine hquiet rfl rfl (returns_lift.mp hr).2 fun ls hl => ?_
      obtain rfl : ls = [.spawns t .rt] := hl
      simp [Label.isQuiet]
  | start t =>
      obtain ⟨ls, hpath, hl | ⟨hop, -⟩⟩ := hd.path
      · obtain rfl : ls = [.starts t] := hl
        cases hpath.act with
        | starts ht _ _ hnone _ _ _ hplace _ _ _ =>
            refine ⟨[], Sched.wakes_nil fun u hu => ?_, ?_⟩
            · rw [Sched.state_of_place hplace, if_neg]
              · exact hu
              · rintro rfl
                rw [(h.sched.fresh _ ht).2] at hu
                cases hu
            · rw [(returns_lift.mp hr).2, Sched.switchEvents, hnone]
              rfl
      · cases hop

end Trace

end Steps

end Rtsched

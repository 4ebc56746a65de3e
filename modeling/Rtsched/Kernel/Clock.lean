import Rtsched.Kernel.Reach

/-!
The queue's time and the hardware timer.

The timer counts down from its reload value and raises a tick when it restarts.  A tick accounts
the whole interval, yielding and blocking account the part of it that has passed, and `schedule`
restarts the counter whatever has requested it.

* `Kernel.WakesOnly`: the steps that request a switch because they wake a peer; they account
  nothing.
* `Kernel.Does.accounts`: **what a step adds to the queue's time**.
* `Clocked`: the kernel with its timer, serialized; `lost` adds up what was on the counter at such
  steps.
* `Clocked.reachable_conserved`: **the queue's time is the hardware time at every switch exactly if
  nothing was lost** and the time fits its type.
-/

namespace Rtsched

open Outcome

variable {α : Type}

namespace Kernel

variable {k k' : Kernel α} {reply : Reply α} {ev : Event α}

/-! ### What a step accounts -/

/-- The turn of a queue operation wakes a peer. -/
def CallWakes (k : Kernel α) : Call α → Prop
  | .send i _ =>
      (k.queue i).len ≠ (k.queue i).cap.n ∧ k.sched.waiters (.messageQueueReceive i) ≠ []
  | .receive i => (k.queue i).len ≠ 0 ∧ k.sched.waiters (.messageQueueSend i) ≠ []

instance (k : Kernel α) : DecidablePred k.CallWakes
  | .send _ _ => inferInstanceAs (Decidable (_ ≠ _ ∧ _ ≠ []))
  | .receive _ => inferInstanceAs (Decidable (_ ≠ _ ∧ _ ≠ []))

/-- The step wakes a waiter of an object, and it parks nobody. -/
def WakesOnly (k : Kernel α) (ev : Event α) : Prop :=
  match ev with
  | .give i => k.sched.waiters i.object ≠ []
  | .unlock i => k.sched.waiters (.mutex i) ≠ []
  | ev => ∃ call ∈ k.turnCall ev, k.CallWakes call

instance (k : Kernel α) : DecidablePred k.WakesOnly := fun ev =>
  match ev with
  | .give _ | .unlock _ => inferInstanceAs (Decidable (_ ≠ []))
  | .yieldyi _ | .msleepyi _ _ _ | .setRtThreadStartTime _ | .tryTake _ | .take _ _ | .tryLock _
  | .lock _ _ | .trySend _ _ | .tryReceive _ | .send _ _ _ _ | .receive _ _ _ | .retry _
  | .tick _ _ | .schedule _ | .spawnCfs _ _ | .spawnRt _ _ | .start _ =>
      inferInstanceAs (Decidable (∃ call ∈ k.turnCall _, k.CallWakes call))

/-- What a step does to the time: it wakes a peer and requests a switch without accounting
anything, it changes nothing, or it accounts `elapsed` and requests a switch. -/
def Accounts (wakes : Prop) (elapsed : Option ℕ) (s s' : Sched) : Prop :=
  (wakes ∧ s'.pendsv = true ∧ s'.ktimers.nowTicks = s.ktimers.nowTicks) ∨
  (¬ wakes ∧ s'.pendsv = s.pendsv ∧ s'.ktimers.nowTicks = s.ktimers.nowTicks) ∨
  (¬ wakes ∧ s'.pendsv = true ∧ ∃ n ∈ elapsed,
    s'.ktimers.nowTicks = satAdd64 s.ktimers.nowTicks n)

/-- Nothing is accounted. -/
lemma Accounts.of_none {wakes : Prop} {elapsed : Option ℕ} {s s' : Sched}
    (h : Accounts wakes none s s') : Accounts wakes elapsed s s' := by
  rcases h with h | h | ⟨-, -, n, hn, -⟩
  · exact Or.inl h
  · exact Or.inr (Or.inl h)
  · cases hn

/-- A peer that is woken. -/
lemma WakesPeer.accounts {o : WaitObject} (h : k.sched.Inv) (hw : WakesPeer o k k') :
    Accounts (k.sched.waiters o ≠ []) none k.sched k'.sched := by
  rcases hw with ⟨hnil, heq⟩ | ⟨t, ht, hact⟩
  · rw [heq]
    exact Or.inr (Or.inl ⟨not_not.mpr hnil, rfl, rfl⟩)
  · refine Or.inl ⟨List.ne_nil_of_mem ht, hact.pendsv, ?_⟩
    rw [hact.nowTicks h]
    exact min_eq_left h.tidy.ktimers.now_le

/-- A turn accounts only when it parks its thread. -/
lemma Turn.accounts {elapsed : ℕ} {call : Call α} (h : k.sched.Inv)
    (ht : Turn elapsed k call k' reply) :
    Accounts (k.CallWakes call) none k.sched k'.sched ∨
      (reply = .blocked ∧ Accounts (k.CallWakes call) (some elapsed) k.sched k'.sched) := by
  cases ht with
  | @sent i x l _ hl hlen hs hw =>
      have hne : (k.queue i).len ≠ (k.queue i).cap.n := by rwa [hl.len_eq]
      have hiff : k.CallWakes (.send i x) ↔ k.sched.waiters (.messageQueueReceive i) ≠ [] :=
        ⟨fun hc => hc.2, fun hc => ⟨hne, hc⟩⟩
      rw [propext hiff]
      exact Or.inl (hw.accounts h)
  | @received i x l _ hl hs hw =>
      have hne : (k.queue i).len ≠ 0 := by
        rw [hl.len_eq]
        exact Nat.succ_ne_zero _
      have hiff : k.CallWakes (.receive i) ↔ k.sched.waiters (.messageQueueSend i) ≠ [] :=
        ⟨fun hc => hc.2, fun hc => ⟨hne, hc⟩⟩
      rw [propext hiff]
      exact Or.inl (hw.accounts h)
  | @sendParked i x l t _ hl hlen hp =>
      have hfull : (k.queue i).len = (k.queue i).cap.n := by rwa [hl.len_eq]
      exact Or.inr ⟨rfl, Or.inr (Or.inr ⟨fun hc => hc.1 hfull, hp.act.pendsv, _, rfl,
        hp.act.nowTicks h⟩)⟩
  | @receiveParked i t _ hl hp =>
      exact Or.inr ⟨rfl, Or.inr (Or.inr ⟨fun hc => hc.1 hl.len_eq, hp.act.pendsv, _, rfl,
        hp.act.nowTicks h⟩)⟩
  | @sendFails i x l status hl hlen =>
      have hfull : (k.queue i).len = (k.queue i).cap.n := by rwa [hl.len_eq]
      exact Or.inl (Or.inr (Or.inl ⟨fun hc => hc.1 hfull, rfl, rfl⟩))
  | @receiveFails i status hl =>
      exact Or.inl (Or.inr (Or.inl ⟨fun hc => hc.1 hl.len_eq, rfl, rfl⟩))

/-- The event is a turn of a queue operation. -/
lemma wakesOnly_of_turnCall {call : Call α} (h : k.turnCall ev = some call) :
    k.WakesOnly ev ↔ k.CallWakes call := by
  have hiff : (∃ c ∈ k.turnCall ev, k.CallWakes c) ↔ k.CallWakes call := by
    rw [h]
    simp
  cases ev with
  | give i => cases h
  | unlock i => cases h
  | _ => exact hiff

/-- Sequences of actions by what they account. -/
lemma accounts_nil {s s' : Sched} (hp : Sched.Path [] s s') {wakes : Prop} (hw : ¬ wakes)
    (elapsed : Option ℕ) : Accounts wakes elapsed s s' := by
  rw [hp.eq_of_nil]
  exact Or.inr (Or.inl ⟨hw, rfl, rfl⟩)

lemma accounts_act {s s' : Sched} {l : Label} (h : s.Inv) (ha : Sched.Act l s s')
    {wakes : Prop} (hw : ¬ wakes) (hpend : s'.pendsv = true) :
    Accounts wakes (some l.elapsed) s s' :=
  Or.inr (Or.inr ⟨hw, hpend, _, rfl, ha.nowTicks h⟩)

lemma accounts_still {s s' : Sched} {l : Label} (h : s.Inv) (ha : Sched.Act l s s')
    {wakes : Prop} (hw : ¬ wakes) (hpend : s'.pendsv = s.pendsv) (hl : l.elapsed = 0)
    (elapsed : Option ℕ) : Accounts wakes elapsed s s' := by
  refine Or.inr (Or.inl ⟨hw, hpend, ?_⟩)
  rw [ha.nowTicks h, hl]
  exact min_eq_left h.tidy.ktimers.now_le

lemma accounts_wakes {s s' : Sched} {t : Tid} {o : WaitObject} (h : s.Inv)
    (ha : Sched.Act (.wakes t o) s s') {wakes : Prop} (hw : wakes) (elapsed : Option ℕ) :
    Accounts wakes elapsed s s' := by
  refine Or.inl ⟨hw, ha.pendsv, ?_⟩
  rw [ha.nowTicks h]
  exact min_eq_left h.tidy.ktimers.now_le

/-- The woken thread was waiting. -/
lemma waiters_ne_nil {s s' : Sched} {t : Tid} {o : WaitObject} (ha : Sched.Act (.wakes t o) s s') :
    s.waiters o ≠ [] := by
  cases ha with
  | wakes ht _ => exact List.ne_nil_of_mem ht

/-- Restoring a deadline before a wake-up accounts nothing. -/
lemma accounts_restore {s s₁ s' : Sched} {u t : Tid} {o : WaitObject} (h : s.Inv)
    (hs : Sched.Act (.sets u) s s₁) (hw : Sched.Act (.wakes t o) s₁ s') (elapsed : Option ℕ) :
    Accounts (s.waiters o ≠ []) elapsed s s' := by
  have hne : s.waiters o ≠ [] := by
    obtain ⟨v, hv⟩ := List.exists_mem_of_ne_nil _ (waiters_ne_nil hw)
    have hv' : (s₁.place v).waitsOn o := hv
    rw [hs.sets_place] at hv'
    exact List.ne_nil_of_mem hv'
  have h₁ := hs.inv h
  refine Or.inl ⟨hne, hw.pendsv, ?_⟩
  rw [hw.nowTicks h₁, hs.nowTicks h]
  exact (min_eq_left (min_le_right _ _)).trans (min_eq_left h.tidy.ktimers.now_le)

/-- Setting a deadline after another action accounts nothing. -/
lemma Accounts.sets {s s₁ s' : Sched} {u : Tid} {wakes : Prop} {elapsed : Option ℕ}
    (ha : Accounts wakes elapsed s s₁) (h₁ : s₁.Inv) (hs : Sched.Act (.sets u) s₁ s') :
    Accounts wakes elapsed s s' := by
  have hpend : s'.pendsv = s₁.pendsv := hs.pendsv
  have hnow : s'.ktimers.nowTicks = s₁.ktimers.nowTicks :=
    (hs.nowTicks h₁).trans (min_eq_left h₁.tidy.ktimers.now_le)
  rw [Accounts, hpend, hnow]
  exact ha

/-- **What a step accounts.**  Ticks and switches are left to the timer. -/
theorem Does.accounts (h : k.sched.Inv) (hd : k.Does ev k' reply)
    (htick : ∀ port fuel, ev ≠ .tick port fuel) (hswitch : ev.isSchedule = false) :
    Accounts (k.WakesOnly ev) (ev.port.map TimerPort.elapsedTicksSinceCurrentReload)
      k.sched k'.sched := by
  cases hd with
  | @turn _ call _ _ hcall hmode ht =>
      rw [propext (wakesOnly_of_turnCall (turnCall_of_queueCall hcall))]
      rcases ht.accounts h with hnone | ⟨hb, hsome⟩
      · exact hnone.of_none
      · have htry := (hmode hb).2
        cases ev with
        | send i x canBlock port => exact hsome
        | receive i canBlock port => exact hsome
        | trySend i x => cases htry
        | tryReceive i => cases htry
        | _ => cases hcall
  | @retry port t call _ _ hc _ hcall ht =>
      have hturn : k.turnCall (.retry port) = some call := by
        rw [turnCall, hc]
        exact hcall
      rw [propext (wakesOnly_of_turnCall hturn)]
      rcases Turn.accounts (k := k.setCall t none) h ht with hnone | ⟨-, hsome⟩
      · exact hnone.of_none
      · exact hsome
  | plain hq hp =>
      obtain ⟨ls, hpath, hl⟩ := hp.path
      have hnot : ¬ ∃ call ∈ k.turnCall ev, k.CallWakes call := by
        rw [turnCall_of_not_queueOp hq]
        simp
      cases ev with
      | yieldyi port =>
          rcases hl with rfl | ⟨t, rfl⟩
          · exact accounts_nil hpath hnot _
          · exact accounts_act h hpath.act hnot hpath.act.pendsv
      | msleepyi port ticksPerMs msec =>
          rcases hl with rfl | ⟨t, rfl⟩
          · exact accounts_nil hpath hnot _
          · exact accounts_act h hpath.act hnot hpath.act.pendsv
      | setRtThreadStartTime startTime =>
          rcases hl with rfl | ⟨t, rfl⟩
          · exact accounts_nil hpath hnot _
          · exact accounts_still h hpath.act hnot hpath.act.pendsv rfl _
      | take i port =>
          rcases hl with rfl | ⟨t, rfl⟩
          · exact accounts_nil hpath hnot _
          · exact accounts_act h hpath.act hnot hpath.act.pendsv
      | give i =>
          rcases hl with ⟨rfl, hnil⟩ | ⟨t, rfl⟩
          · exact accounts_nil hpath (not_not.mpr hnil) _
          · exact accounts_wakes h hpath.act (waiters_ne_nil hpath.act) _
      | lock i port =>
          rcases hl with rfl | ⟨t, rfl | ⟨-, u, rfl⟩⟩
          · exact accounts_nil hpath hnot _
          · exact accounts_act h hpath.act hnot hpath.act.pendsv
          · obtain ⟨s₁, ha, hs⟩ := hpath.act_act
            exact (accounts_act h ha hnot ha.pendsv).sets (ha.inv h) hs
      | unlock i =>
          obtain ⟨ls₁, ls₂, rfl, rfl | ⟨-, u, rfl⟩, hl₂⟩ := hl
          · rcases hl₂ with ⟨rfl, hnil⟩ | ⟨t, rfl⟩
            · exact accounts_nil hpath (not_not.mpr hnil) _
            · exact accounts_wakes h hpath.act (waiters_ne_nil hpath.act) _
          · rcases hl₂ with ⟨rfl, hnil⟩ | ⟨t, rfl⟩
            · exact accounts_still h hpath.act (not_not.mpr hnil) hpath.act.pendsv rfl _
            · obtain ⟨s₁, hs, hw⟩ := hpath.act_act
              exact accounts_restore h hs hw _
      | tick port fuel => exact absurd rfl (htick port fuel)
      | schedule port => cases hswitch
      | spawnCfs t priority =>
          rw [hl] at hpath
          exact accounts_still h hpath.act hnot hpath.act.pendsv rfl _
      | spawnRt t timing =>
          rw [hl] at hpath
          exact accounts_still h hpath.act hnot hpath.act.pendsv rfl _
      | start t =>
          rw [hl] at hpath
          exact accounts_still h hpath.act hnot hpath.act.pendsv rfl _
      | _ =>
          rw [hl] at hpath
          exact accounts_nil hpath hnot _

end Kernel

/-! ### The timer -/

/-- As long as a timer is linked, there is a reload value, and it can be programmed. -/
lemma KTimers.nextKtimerReload_spec {q : KTimers} (h : q.Linked .cfs) :
    ∃ r, q.nextKtimerReload = some r ∧ r ≤ schedulerTimerReloadMax := by
  obtain ⟨k, hk⟩ := exists_first h
  rw [nextKtimerReload, hk]
  cases k with
  | cfs => exact ⟨_, rfl, min_le_right _ _⟩
  | wait => exact ⟨_, rfl, min_le_right _ _⟩
  | rt t => exact ⟨_, rfl, min_le_right _ _⟩

/-- The kernel with its timer: the reload value, the ticks since the timer was started, the ticks
since the scheduler was started, and those that were on the counter whenever a step requested a
switch only by waking a peer. -/
structure Clocked (α : Type) where
  kernel : Kernel α
  reload : ℕ
  elapsed : ℕ
  total : ℕ
  lost : ℕ

/-- What happens next: time passes, the timer restarts and raises a tick, an operation, or the
pending switch. -/
inductive Clocked.Input (α : Type)
  | pass (n : ℕ)
  | tick (fuel : ℕ)
  | op (ev : Event α)
  | schedule

namespace Clocked

variable {c c' : Clocked α}

/-- The registers of the timer. -/
def port (c : Clocked α) : TimerPort :=
  ⟨some (Fin.ofNat (2 ^ 32) c.reload), some (Fin.ofNat (2 ^ 32) (c.reload - c.elapsed))⟩

/-- `program_next_scheduler_timer`: the timer is restarted. -/
def program (c : Clocked α) : Clocked α :=
  match c.kernel.sched.ktimers.nextKtimerReload with
  | some r => { c with reload := r, elapsed := 0 }
  | none => c

/-- An operation of a thread or of an interrupt handler; the start programs the timer. -/
def operate (c : Clocked α) (ev : Event α) : Option (Clocked α) := do
  let k ← c.kernel.next ev
  let c' := { c with kernel := k, lost := c.lost + if c.kernel.WakesOnly ev then c.elapsed else 0 }
  match ev with
  | .tick _ _ | .schedule _ => none
  | .start _ => some c'.program
  | _ => some c'

/-- One step.  Handlers take no time, and a pending switch comes first. -/
def next (c : Clocked α) : Input α → Option (Clocked α)
  | .pass n =>
      if c.kernel.sched.started = true ∧ c.kernel.sched.pendsv = false ∧ c.elapsed + n ≤ c.reload
      then some { c with elapsed := c.elapsed + n, total := c.total + n }
      else none
  | .tick fuel =>
      if c.kernel.sched.started = true ∧ c.kernel.sched.pendsv = false ∧ c.elapsed = c.reload
      then do
        let k ← c.kernel.next (.tick c.port fuel)
        some { c with kernel := k, elapsed := 0, total := c.total + 1 }
      else none
  | .op ev =>
      if c.kernel.sched.pendsv = false ∧ ∀ p ∈ ev.port, p = c.port then c.operate ev else none
  | .schedule => do
      let k ← c.kernel.next (.schedule c.port)
      some { c with kernel := k }.program

/-- At the start no time has passed. -/
structure Initial (c : Clocked α) : Prop where
  kernel : c.kernel.Initial
  reload : c.reload ≤ schedulerTimerReloadMax
  elapsed : c.elapsed = 0
  total : c.total = 0
  lost : c.lost = 0

/-- The states of the runs with a timer. -/
abbrev Reachable (c : Clocked α) : Prop :=
  Runs.Reach Initial (fun c c' => ∃ i, c.next i = some c') c

/-- The ticks accounted, the ticks lost and those still to be accounted make up the total. -/
structure Inv (c : Clocked α) : Prop where
  kernel : c.kernel.Inv
  reload : c.reload ≤ schedulerTimerReloadMax
  elapsed : c.elapsed ≤ c.reload
  started : c.kernel.sched.started = false → c.elapsed = 0
  counted : ∃ n, c.kernel.sched.ktimers.nowTicks = min n u64Max ∧
    n + c.lost + (if c.kernel.sched.pendsv then 0 else c.elapsed) = c.total

/-- The elapsed ticks that the registers show. -/
lemma elapsed_port (h : c.Inv) : c.port.elapsedTicksSinceCurrentReload = c.elapsed := by
  have hr := h.reload
  have he := h.elapsed
  simp only [port, TimerPort.elapsedTicksSinceCurrentReload, Fin.val_ofNat, schedulerTimerReloadMax]
    at hr ⊢
  omega

/-- The interval that a tick or a switch takes to have passed: the reload value and the restart. -/
lemma elapsed_interrupt (h : c.Inv) :
    c.kernel.sched.ktimers.elapsedTicksSinceLastInterrupt c.port = c.reload + 1 := by
  have hr := h.reload
  simp only [KTimers.elapsedTicksSinceLastInterrupt, port, satAdd32, u32Max, Fin.val_ofNat,
    schedulerTimerReloadMax] at hr ⊢
  omega

/-- Programming the timer restarts it and changes nothing else. -/
lemma program_spec (h : c.kernel.Inv) :
    c.program.kernel = c.kernel ∧ c.program.reload ≤ schedulerTimerReloadMax ∧
      c.program.elapsed = 0 ∧ c.program.total = c.total ∧ c.program.lost = c.lost := by
  obtain ⟨r, hr, hle⟩ := KTimers.nextKtimerReload_spec h.sched.cfs
  rw [program, hr]
  exact ⟨rfl, hle, rfl, rfl, rfl⟩

lemma Initial.inv (h : c.Initial) : c.Inv := by
  obtain ⟨layout, periodTicks, execTicks, hboot⟩ := h.kernel.boot
  obtain ⟨-, -, -, hnow, -, -⟩ := Sched.boot_base hboot
  refine ⟨h.kernel.inv, h.reload, by rw [h.elapsed]; exact Nat.zero_le _, fun _ => h.elapsed,
    0, hnow, ?_⟩
  rw [h.lost, h.total, h.elapsed, ite_self]

/-- Adding to a saturated sum. -/
lemma satAdd64_min (n m : ℕ) : satAdd64 (min n u64Max) m = min (n + m) u64Max := by
  rw [satAdd64]
  omega

/-- Time passes on the counter. -/
lemma Inv.pass (h : c.Inv) {n : ℕ} (hn : c.next (.pass n) = some c') : c'.Inv := by
  rw [next] at hn
  split at hn
  · rename_i hcond
    obtain ⟨hst, hpend, hle⟩ := hcond
    obtain rfl := Option.some.inj hn
    obtain ⟨m, hnow, hsum⟩ := h.counted
    refine ⟨h.kernel, h.reload, hle, fun hno => ?_, m, hnow, ?_⟩
    · rw [hst] at hno
      cases hno
    · rw [hpend] at hsum
      simp only [hpend, Bool.false_eq_true, if_false] at hsum ⊢
      omega
  · cases hn

/-- A tick accounts the whole interval. -/
lemma Inv.tick (h : c.Inv) {fuel : ℕ} (hn : c.next (.tick fuel) = some c') : c'.Inv := by
  rw [next] at hn
  split at hn
  · rename_i hcond
    obtain ⟨hst, hpend, hfull⟩ := hcond
    obtain ⟨k, hk, hc'⟩ := Option.bind_eq_some_iff.mp hn
    obtain rfl := Option.some.inj hc'
    obtain ⟨hen, reply, hrun⟩ := Kernel.next_eq_some.mp hk
    have hd := h.kernel.does hen hrun
    obtain ⟨ls, hpath, hl⟩ := hd.path
    have hls : ls = [.ticks (c.reload + 1)] := by
      rcases hl with (⟨-, hno⟩ | ⟨hl, -⟩) | ⟨hq, -⟩
      · rw [hst] at hno
        cases hno
      · rw [hl, elapsed_interrupt h]
      · cases hq
    subst hls
    have hpend' : k.sched.pendsv = true := hpath.act.pendsv
    obtain ⟨m, hnow, hsum⟩ := h.counted
    refine ⟨hd.inv h.kernel, h.reload, Nat.zero_le _, fun _ => rfl, m + (c.reload + 1), ?_, ?_⟩
    · rw [hpath.act.nowTicks h.kernel.sched, hnow]
      exact satAdd64_min ..
    · simp only [hpend, hpend', Bool.false_eq_true, if_false, if_true] at hsum ⊢
      omega
  · cases hn

/-- The switch restarts the counter. -/
lemma Inv.schedule (h : c.Inv) (hn : c.next .schedule = some c') :
    c'.Inv ∧ c'.kernel.sched.ktimers.nowTicks = c.kernel.sched.ktimers.nowTicks ∧
      c'.total = c.total ∧ c'.lost = c.lost ∧ c.kernel.sched.pendsv = true := by
  rw [next] at hn
  obtain ⟨k, hk, hc'⟩ := Option.bind_eq_some_iff.mp hn
  obtain rfl := Option.some.inj hc'
  obtain ⟨hen, reply, hrun⟩ := Kernel.next_eq_some.mp hk
  have hd := h.kernel.does hen hrun
  have hinv := hd.inv h.kernel
  obtain ⟨ls, hpath, hl⟩ := hd.path
  have hls : ls = [.switches] := by
    rcases hl with hl | ⟨hq, -⟩
    · exact hl
    · cases hq
  subst hls
  have hpend : k.sched.pendsv = false := hpath.act.pendsv
  have hnow : k.sched.ktimers.nowTicks = c.kernel.sched.ktimers.nowTicks :=
    (hpath.act.nowTicks h.kernel.sched).trans (min_eq_left h.kernel.sched.tidy.ktimers.now_le)
  obtain ⟨hk', hreload, helapsed, htotal, hlost⟩ := program_spec (c := { c with kernel := k }) hinv
  obtain ⟨m, hcount, hsum⟩ := h.counted
  rw [hen.1, if_pos rfl] at hsum
  refine ⟨⟨?_, hreload, ?_, fun _ => helapsed, m, ?_, ?_⟩, ?_, htotal, hlost, hen.1⟩
  · rw [hk']
    exact hinv
  · rw [helapsed]
    exact Nat.zero_le _
  · rw [hk']
    exact hnow.trans hcount
  · rw [hk', hpend, if_neg Bool.false_ne_true, helapsed, htotal, hlost]
    exact hsum
  · rw [hk']
    exact hnow

/-- The counter is restarted while nothing is on it. -/
lemma Inv.program (h : c.Inv) (hzero : c.elapsed = 0) : c.program.Inv := by
  obtain ⟨hk, hreload, helapsed, htotal, hlost⟩ := program_spec h.kernel
  refine ⟨by rw [hk]; exact h.kernel, hreload, by rw [helapsed]; exact Nat.zero_le _,
    fun _ => helapsed, ?_⟩
  have hcounted := h.counted
  rw [hzero] at hcounted
  rw [hk, htotal, hlost, helapsed]
  exact hcounted

/-- **An operation accounts what is on the counter, unless it only wakes a peer.** -/
lemma Inv.operate (h : c.Inv) {ev : Event α} {k : Kernel α} (hk : c.kernel.next ev = some k)
    (hpend : c.kernel.sched.pendsv = false) (hport : ∀ p ∈ ev.port, p = c.port)
    (htick : ∀ port fuel, ev ≠ .tick port fuel) (hswitch : ev.isSchedule = false) :
    Inv { c with
      kernel := k, lost := c.lost + if c.kernel.WakesOnly ev then c.elapsed else 0 } := by
  obtain ⟨hen, reply, hrun⟩ := Kernel.next_eq_some.mp hk
  have hd := h.kernel.does hen hrun
  obtain ⟨ls, hpath, -⟩ := hd.path
  obtain ⟨m, hnow, hsum⟩ := h.counted
  rw [hpend, if_neg Bool.false_ne_true] at hsum
  refine ⟨hd.inv h.kernel, h.reload, h.elapsed, fun hno => h.started ?_, ?_⟩
  · by_contra hst
    have hst' : k.sched.started = true := hpath.started (by simpa using hst)
    rw [hst'] at hno
    cases hno
  · rcases hd.accounts h.kernel.sched htick hswitch with
      ⟨hw, hp, hsame⟩ | ⟨hw, hp, hsame⟩ | ⟨hw, hp, n, hn, hadd⟩
    · -- what is on the counter is lost
      refine ⟨m, hsame.trans hnow, ?_⟩
      simp only [if_pos hw, hp, if_true]
      omega
    · refine ⟨m, hsame.trans hnow, ?_⟩
      rw [if_neg hw, hp, hpend, if_neg Bool.false_ne_true]
      exact hsum
    · obtain ⟨p, hp', rfl⟩ := Option.map_eq_some_iff.mp hn
      rw [hport p hp', elapsed_port h] at hadd
      refine ⟨m + c.elapsed, ?_, ?_⟩
      · rw [hadd, hnow]
        exact satAdd64_min ..
      · simp only [if_neg hw, hp, if_true]
        omega

lemma Inv.op (h : c.Inv) {ev : Event α} (hn : c.next (.op ev) = some c') : c'.Inv := by
  rw [next] at hn
  split at hn
  · rename_i hcond
    obtain ⟨hpend, hport⟩ := hcond
    obtain ⟨k, hk, hc'⟩ := Option.bind_eq_some_iff.mp hn
    have hop := h.operate hk hpend hport
    cases ev with
    | tick port fuel => cases hc'
    | schedule port => cases hc'
    | start t =>
        obtain rfl := Option.some.inj hc'
        obtain ⟨hen, -⟩ := Kernel.next_eq_some.mp hk
        exact (hop (by simp) rfl).program (h.started hen.2.2)
    | _ =>
        obtain rfl := Option.some.inj hc'
        exact hop (by simp) rfl
  · cases hn

/-- **Every step keeps the count.** -/
theorem Inv.next (h : c.Inv) {i : Input α} (hn : c.next i = some c') : c'.Inv := by
  cases i with
  | pass n => exact h.pass hn
  | tick fuel => exact h.tick hn
  | op ev => exact h.op hn
  | schedule => exact (h.schedule hn).1

lemma reachable_inv (h : c.Reachable) : c.Inv :=
  Runs.Reach.invariant (fun _ hi => hi.inv) (fun _ _ hc ⟨_, hn⟩ => hc.next hn) h

/-- **Clock conservation.**  In every run, whenever a switch reprograms the timer, the queue's time
is the number of hardware ticks since the start exactly if every step that had requested a switch
only by waking a peer did so with nothing on the counter, and the time fits its type. -/
theorem reachable_conserved (h : c.Reachable) (hn : c.next .schedule = some c') :
    c'.kernel.sched.ktimers.nowTicks = c'.total ↔ c.lost = 0 ∧ c.total ≤ u64Max := by
  have hinv := reachable_inv h
  obtain ⟨-, hnow, htotal, -, hpend⟩ := hinv.schedule hn
  obtain ⟨m, hcount, hsum⟩ := hinv.counted
  rw [hpend, if_pos rfl] at hsum
  rw [hnow, htotal, hcount]
  omega

/-! ### A wake-up in the middle of an interval -/

/-- The run of given steps from boot. -/
def trial (is : List (Input ℕ)) : Option (Clocked ℕ) := do
  let k ← Kernel.trial Kernel.next []
  is.foldlM next ⟨k, 0, 0, 0, 0⟩

lemma trial_reachable {is : List (Input ℕ)} {c : Clocked ℕ} (h : trial is = some c) :
    c.Reachable := by
  simp only [trial, Kernel.trial, List.foldlM_nil, Option.bind_eq_bind,
    Option.bind_eq_some_iff] at h
  obtain ⟨k, ⟨k₀, hboot, hk⟩, hrun⟩ := h
  obtain rfl := Option.some.inj hk
  exact Runs.Reach.foldlM (fun _ i _ hn => ⟨i, hn⟩)
    (.start ⟨Kernel.booted_initial hboot, Nat.zero_le _, rfl, rfl, rfl⟩) hrun

/-- A thread blocks on a semaphore. -/
def blockInputs : List (Input ℕ) :=
  [.op (.spawnCfs 1 10), .op (.start 0), .pass 499, .tick 8, .schedule, .pass 499, .tick 8,
    .schedule, .pass 20, .op (.take (.binary 0) ⟨some 499, some 479⟩)]

/-- An interrupt gives the semaphore 100 ticks later. -/
def wakeInputs : List (Input ℕ) :=
  blockInputs ++ [.schedule, .pass 100, .op (.give (.binary 0))]

/-- The switch that the wake-up requests drops these ticks. -/
theorem give_drops_ticks : ∃ c c', trial wakeInputs = some c ∧ c.Reachable ∧
    c.next .schedule = some c' ∧ c'.kernel.sched.ktimers.nowTicks = 1020 ∧ c'.total = 1120 := by
  have htest : (trial wakeInputs).any (fun c => (c.next .schedule).any fun c' =>
      c'.kernel.sched.ktimers.nowTicks == 1020 && c'.total == 1120) = true := by decide +kernel
  obtain ⟨c, hc, htest⟩ := (Option.any_eq_true ..).mp htest
  obtain ⟨c', hc', htest⟩ := (Option.any_eq_true ..).mp htest
  simp only [Bool.and_eq_true, beq_iff_eq] at htest
  exact ⟨c, c', hc, trial_reachable hc, hc', htest.1, htest.2⟩

/-- The switch after the blocking loses nothing. -/
theorem reachable_conserved_block : ∃ c c', trial blockInputs = some c ∧
    c.next .schedule = some c' ∧ c'.kernel.sched.ktimers.nowTicks = c'.total := by
  have htest : (trial blockInputs).any (fun c => (c.next .schedule).any fun _ =>
      c.lost == 0 && decide (c.total ≤ u64Max)) = true := by decide +kernel
  obtain ⟨c, hc, htest⟩ := (Option.any_eq_true ..).mp htest
  obtain ⟨c', hc', htest⟩ := (Option.any_eq_true ..).mp htest
  simp only [Bool.and_eq_true, beq_iff_eq, decide_eq_true_eq] at htest
  exact ⟨c, c', hc, hc', (reachable_conserved (trial_reachable hc) hc').mpr htest⟩

end Clocked

end Rtsched

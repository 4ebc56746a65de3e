import Rtsched.Kernel.Reach
import Mathlib.Data.Finset.Card

/-!
No wake-up of a message queue is lost.

A wake-up reserves nothing: the woken thread retries, and others may come first.  What counts is
that every message in the ring has a woken receiver that is due to retry as long as another one
is still blocked, and every free slot a woken sender.

* `Kernel.due k o`: the threads woken from the object `o` that can run and have not retried.
* `Kernel.supply k o`: what the waiters of `o` wait for, messages or free slots.
* `Kernel.reachable_wakeups`: **while a thread is blocked, the supply is at most the number of
  threads that are due**.
-/

namespace Rtsched

open Outcome

variable {α : Type}

namespace Kernel

variable {k k' : Kernel α} {reply : Reply α} {ev : Event α} {o : WaitObject} {t : Tid}

/-- The messages in the ring for a receiver, the free slots for a sender. -/
def supply (k : Kernel α) : WaitObject → ℕ
  | .messageQueueReceive i => (k.queue i).len
  | .messageQueueSend i => (k.queue i).cap.n - (k.queue i).len
  | _ => 0

/-- The threads in a call on the object that have been woken, so that they can run again, and have
not retried. -/
def due (k : Kernel α) (o : WaitObject) : Finset Tid :=
  k.sched.spawned.toFinset.filter fun t =>
    (k.call t).any (fun c => decide (c.object = o)) = true ∧ (k.sched.state t).isBlocked = false

lemma mem_due (h : k.Inv) :
    t ∈ k.due o ↔
      (∃ c, k.call t = some c ∧ c.object = o) ∧ (k.sched.state t).isBlocked = false := by
  simp only [due, Finset.mem_filter, List.mem_toFinset, Option.any_eq_true, decide_eq_true_eq]
  refine ⟨fun ht => ht.2, fun ht => ⟨h.calls t ?_, ht⟩⟩
  obtain ⟨⟨c, hc, -⟩, -⟩ := ht
  rw [hc]
  rfl

/-- While a thread waits for the object, the supply is at most the number of threads that are due,
up to a slack. -/
def SuppliedAt (slack : ℕ) (k : Kernel α) (o : WaitObject) : Prop :=
  k.sched.waiters o ≠ [] → k.supply o ≤ (k.due o).card + slack

/-- While a thread waits, the supply is at most the number of threads that are due. -/
def Supplied (k : Kernel α) : Prop := ∀ o, k.SuppliedAt 0 o

/-! ### One turn -/

/-- The supply after a ring has been written. -/
lemma Stores.supply {i : ℕ} {l : List α} (hs : Stores i l k k') :
    k'.supply (.messageQueueReceive i) = l.length ∧
    k'.supply (.messageQueueSend i) = (k.queue i).cap.n - l.length ∧
    ∀ o, o ≠ .messageQueueReceive i → o ≠ .messageQueueSend i → k'.supply o = k.supply o := by
  obtain ⟨hcap, hself, -⟩ := hs.queue_eq i
  have hlen := (hself rfl).len_eq
  refine ⟨hlen, ?_, fun o hr hsnd => ?_⟩
  · rw [Kernel.supply, hlen, hcap]
  · cases o with
    | messageQueueReceive j =>
        simp only [Kernel.supply, (hs.queue_eq j).2.2 fun hj => hr (by rw [hj])]
    | messageQueueSend j =>
        simp only [Kernel.supply, (hs.queue_eq j).2.2 fun hj => hsnd (by rw [hj])]
    | _ => rfl

/-- Waking a peer: nobody is blocked anew, nobody stops being due, and one more thread is due if
others stay blocked. -/
lemma WakesPeer.due {o₁ : WaitObject} (h : k.Inv) (h' : k'.Inv) (hcall : k'.call = k.call)
    (ho₁ : o₁.isQueue = true) (hw : WakesPeer o₁ k k') :
    (∀ o, k'.sched.waiters o ≠ [] → k.sched.waiters o ≠ []) ∧
    (∀ o, (k.due o).card ≤ (k'.due o).card) ∧
    (k'.sched.waiters o₁ ≠ [] → (k.due o₁).card + 1 ≤ (k'.due o₁).card) := by
  rcases hw with ⟨hnil, heq⟩ | ⟨t, ht, hact⟩
  · have hdue : ∀ o, k.due o = k'.due o := fun o => by rw [Kernel.due, Kernel.due, heq, hcall]
    rw [heq]
    exact ⟨fun _ => id, fun o => (congrArg Finset.card (hdue o)).le, fun hne => absurd hnil hne⟩
  · have hmem : ∀ u o, u ∈ k'.sched.waiters o ↔ u ∈ k.sched.waiters o ∧ u ≠ t :=
      hact.mem_waiters h.sched
    have hsub : ∀ o, k.due o ⊆ k'.due o := by
      intro o u hu
      rw [mem_due h] at hu
      rw [mem_due h', hcall]
      exact ⟨hu.1, hact.awake nofun hu.2⟩
    refine ⟨fun o hne => ?_, fun o => Finset.card_le_card (hsub o), fun _ => ?_⟩
    · obtain ⟨u, hu⟩ := List.exists_mem_of_ne_nil _ hne
      exact List.ne_nil_of_mem ((hmem u o).mp hu).1
    · -- the woken thread is due, and it was not
      have hnew : t ∈ k'.due o₁ := by
        rw [mem_due h', hcall]
        refine ⟨h.waits t o₁ ho₁ ht, ?_⟩
        rw [hact.state_wakes, if_pos rfl]
        rfl
      have hold : t ∉ k.due o₁ := by
        have hsusp : k.sched.state t = .suspended := ((h.sched.ok t).waits o₁ ht).1
        rw [mem_due h, hsusp]
        exact fun hd => Bool.noConfusion hd.2
      rw [← Finset.card_insert_of_notMem hold]
      exact Finset.card_le_card (Finset.insert_subset hnew (hsub o₁))

/-- Parking a thread that was in no call. -/
lemma Parks.due {call : Call α} {elapsed : ℕ} (h : k.Inv) (h' : k'.Inv)
    (hp : Parks t call elapsed k k') (hnone : k.call t = none) (ho : o ≠ call.object) :
    (k'.sched.waiters o ≠ [] → k.sched.waiters o ≠ []) ∧ (k.due o).card ≤ (k'.due o).card := by
  have hmem : ∀ u, u ∈ k'.sched.waiters o ↔ u ∈ k.sched.waiters o := fun u =>
    (hp.act.mem_waiters h.sched u o).trans
      ⟨fun hu => hu.resolve_right fun hu => ho hu.2, Or.inl⟩
  refine ⟨fun hne => ?_, Finset.card_le_card fun u hu => ?_⟩
  · obtain ⟨u, hu⟩ := List.exists_mem_of_ne_nil _ hne
    exact List.ne_nil_of_mem ((hmem u).mp hu)
  · rw [mem_due h] at hu
    obtain ⟨⟨c, hc, hobj⟩, hawake⟩ := hu
    have hut : u ≠ t := by
      rintro rfl
      rw [hnone] at hc
      cases hc
    rw [mem_due h', hp.call_eq, Function.update_of_ne hut]
    exact ⟨⟨c, hc, hobj⟩, hp.act.awake (fun heq => hut (Option.some.inj heq).symm) hawake⟩

/-- **A turn of a queue operation.**  A slack of one on the side of the call, left by the thread
that retries, is used up. -/
theorem Turn.supplied {elapsed : ℕ} {call : Call α} (h : k.Inv)
    (ht : Turn elapsed k call k' reply)
    (hcall : reply = .blocked → ∀ t, k.sched.current = some t → k.call t = none)
    (hs : k.SuppliedAt 1 call.object) (hs' : ∀ o ≠ call.object, k.SuppliedAt 0 o) :
    k'.Supplied := by
  have h' := ht.inv h
  intro o hne
  cases ht with
  | @sent i x l _ hl _ hst hw =>
      obtain ⟨hwait, hdue, hone⟩ := hw.due h h' hst.call rfl
      obtain ⟨hrecv, hsend, hother⟩ := hst.supply
      have hlen := hl.len_eq
      have hle := hdue o
      by_cases hsn : o = .messageQueueSend i
      · -- the slot that the retrying sender was due for is taken
        subst hsn
        have hold := hs (hwait _ hne)
        change (k.queue i).cap.n - (k.queue i).len ≤ (k.due (.messageQueueSend i)).card + 1 at hold
        rw [hsend, List.length_append, List.length_singleton]
        omega
      · have hold := hs' o hsn (hwait o hne)
        by_cases hr : o = .messageQueueReceive i
        · -- the new message has a receiver that is due
          subst hr
          have hgain := hone hne
          rw [supply] at hold
          rw [hrecv, List.length_append, List.length_singleton]
          omega
        · rw [hother o hr hsn]
          omega
  | @received i x l _ hl hst hw =>
      obtain ⟨hwait, hdue, hone⟩ := hw.due h h' hst.call rfl
      obtain ⟨hrecv, hsend, hother⟩ := hst.supply
      have hlen : (k.queue i).len = l.length + 1 := hl.len_eq
      have hcap : l.length + 1 ≤ (k.queue i).cap.n := hl.len_le
      have hle := hdue o
      by_cases hr : o = .messageQueueReceive i
      · subst hr
        have hold := hs (hwait _ hne)
        change (k.queue i).len ≤ (k.due (.messageQueueReceive i)).card + 1 at hold
        rw [hrecv]
        omega
      · have hold := hs' o hr (hwait o hne)
        by_cases hsn : o = .messageQueueSend i
        · subst hsn
          have hgain := hone hne
          rw [supply] at hold
          rw [hsend]
          omega
        · rw [hother o hr hsn]
          omega
  | @sendParked i x l t _ hl hlen hp =>
      by_cases ho : o = .messageQueueSend i
      · -- the queue is full
        subst ho
        have hfull := hl.len_eq
        rw [supply, hp.queue]
        omega
      · obtain ⟨hwait, hdue⟩ := hp.due h h' (hcall rfl t hp.act.acting.current) ho
        have hold := hs' o ho (hwait hne)
        have hsup : k'.supply o = k.supply o := by cases o <;> simp only [supply, hp.queue]
        omega
  | @receiveParked i t _ hl hp =>
      by_cases ho : o = .messageQueueReceive i
      · -- the queue is empty
        subst ho
        have hempty : (k.queue i).len = 0 := hl.len_eq
        rw [supply, hp.queue]
        omega
      · obtain ⟨hwait, hdue⟩ := hp.due h h' (hcall rfl t hp.act.acting.current) ho
        have hold := hs' o ho (hwait hne)
        have hsup : k'.supply o = k.supply o := by cases o <;> simp only [supply, hp.queue]
        omega
  | @sendFails i x l status hl hlen =>
      by_cases ho : o = .messageQueueSend i
      · subst ho
        have hfull := hl.len_eq
        rw [supply]
        omega
      · exact hs' o ho hne
  | @receiveFails i status hl =>
      by_cases ho : o = .messageQueueReceive i
      · subst ho
        have hempty : (k.queue i).len = 0 := hl.len_eq
        rw [supply]
        omega
      · exact hs' o ho hne

/-! ### Every step -/

/-- The retrying thread is no longer due. -/
lemma Supplied.setCall {call : Call α} (h : k.Inv) (hc : k.sched.current = some t)
    (hpend : k.sched.pendsv = false) (hcall : k.call t = some call) (hs : k.Supplied) :
    (k.setCall t none).SuppliedAt 1 call.object ∧
      ∀ o ≠ call.object, (k.setCall t none).SuppliedAt 0 o := by
  have h' := h.setCall hc hpend
  have hmem : ∀ o, ∀ u ∈ k.due o, u ≠ t → u ∈ (k.setCall t none).due o := by
    intro o u hu hut
    rw [mem_due h] at hu
    obtain ⟨⟨c, hc, hobj⟩, hnot⟩ := hu
    exact (mem_due h').mpr ⟨⟨c, (Function.update_of_ne hut ..).trans hc, hobj⟩, hnot⟩
  refine ⟨fun hne => ?_, fun o ho hne => ?_⟩
  · have hold : k.supply call.object ≤ (k.due call.object).card := hs _ hne
    have herase : (k.due call.object).erase t ⊆ (k.setCall t none).due call.object := fun u hu =>
      hmem _ u (Finset.mem_of_mem_erase hu) (Finset.ne_of_mem_erase hu)
    have hcard := Finset.card_le_card herase
    have hpred := Finset.pred_card_le_card_erase (s := k.due call.object) (a := t)
    change k.supply call.object ≤ _
    omega
  · refine (hs o hne).trans (Finset.card_le_card fun u hu => hmem o u hu ?_)
    rintro rfl
    obtain ⟨⟨c, hc, hobj⟩, -⟩ := (mem_due h).mp hu
    rw [hcall] at hc
    obtain rfl := Option.some.inj hc
    exact ho hobj.symm

/-- A thread that a step stops is the current one, and it is in no call. -/
lemma Labels.stops {ls : List Label} (hen : k.Enabled ev) (hl : Labels k k' ev ls)
    (hpath : Sched.Path ls k.sched k'.sched) {u : Tid} (hu : (k.call u).isSome) :
    ∀ l ∈ ls, l.stops ≠ some u := by
  have hnone : ∀ {l : Label} {t : Tid} {s : Sched}, Sched.Act l k.sched s → k.ThreadMode →
      l.stops = some t → t ≠ u := by
    rintro l t s ha hmode hstops rfl
    have hcur : k.sched.current = some t := by
      cases ha with
      | sleeps hact _ _ _ => exact hact.current.trans hstops
      | blocks hact _ _ => exact hact.current.trans hstops
      | _ => cases hstops
    have hcall := hmode.2 t hcur
    rw [Option.isNone_iff_eq_none.mp hcall] at hu
    cases hu
  have hone : ∀ {l : Label}, ls = [l] → k.ThreadMode → ∀ l ∈ ls, l.stops ≠ some u := by
    rintro l rfl hmode l' hl' hstops
    obtain rfl := List.mem_singleton.mp hl'
    exact hnone hpath.act hmode hstops rfl
  cases ev with
  | msleepyi port ticksPerMs msec =>
      rcases hl with rfl | ⟨t, rfl⟩
      · simp
      · exact hone rfl hen.1
  | take i port =>
      rcases hl with rfl | ⟨t, rfl⟩
      · simp
      · exact hone rfl hen
  | lock i port =>
      rcases hl with rfl | ⟨t, rfl | ⟨-, v, rfl⟩⟩
      · simp
      · exact hone rfl hen
      · obtain ⟨s, ha, -⟩ := hpath.act_act
        intro l hl hstops
        rcases List.mem_pair.mp hl with rfl | rfl
        · exact hnone ha hen hstops rfl
        · cases hstops
  | yieldyi port => rcases hl with rfl | ⟨t, rfl⟩ <;> simp [Label.stops]
  | setRtThreadStartTime startTime => rcases hl with rfl | ⟨t, rfl⟩ <;> simp [Label.stops]
  | give i => rcases hl with ⟨rfl, -⟩ | ⟨t, rfl⟩ <;> simp [Label.stops]
  | unlock i =>
      obtain ⟨ls₁, ls₂, rfl, rfl | ⟨-, v, rfl⟩, ⟨rfl, -⟩ | ⟨t, rfl⟩⟩ := hl <;> simp [Label.stops]
  | tick port fuel => rcases hl with ⟨rfl, -⟩ | ⟨rfl, -⟩ <;> simp [Label.stops]
  | _ =>
      rw [hl]
      simp [Label.stops]

/-- The other steps leave queues, calls and their waiters alone, and stop no thread in a call. -/
lemma Plain.supplied (h : k.Inv) (h' : k'.Inv) (hen : k.Enabled ev) (hp : Plain ev k k')
    (hs : k.Supplied) : k'.Supplied := by
  obtain ⟨ls, hpath, hl⟩ := hp.path
  intro o hne
  cases hq : o.isQueue with
  | false => cases o <;> first | exact Nat.zero_le _ | cases hq
  | true =>
      have hmem := fun u => hpath.mem_waiters h.sched (hl.avoids (ev.object_ne hq)) u
      have hwait : k.sched.waiters o ≠ [] := by
        obtain ⟨u, hu⟩ := List.exists_mem_of_ne_nil _ hne
        exact List.ne_nil_of_mem ((hmem u).mp hu)
      have hsup : k'.supply o = k.supply o := by cases o <;> simp only [supply, hp.queue]
      have hcard : (k.due o).card ≤ (k'.due o).card := by
        refine Finset.card_le_card fun u hu => ?_
        rw [mem_due h] at hu
        obtain ⟨⟨c, hc, hobj⟩, hawake⟩ := hu
        have hsome : (k.call u).isSome := by rw [hc]; rfl
        rw [mem_due h', hp.call]
        exact ⟨⟨c, hc, hobj⟩, hpath.awake (hl.stops hen hpath hsome) hawake⟩
      rw [hsup]
      exact (hs o hwait).trans hcard

/-- **Every step keeps the count.** -/
theorem Does.supplied (h : k.Inv) (hen : k.Enabled ev) (hd : k.Does ev k' reply)
    (hs : k.Supplied) : k'.Supplied := by
  have h' := hd.inv h
  cases hd with
  | turn _ hmode ht =>
      refine ht.supplied h (fun hb t hc => ?_) (fun hne => ?_) fun o _ => hs o
      · exact Option.isNone_iff_eq_none.mp ((hmode hb).1.2 t hc)
      · exact (hs _ hne).trans (Nat.le_succ _)
  | @retry _ t _ _ _ hc hpend hcall ht =>
      obtain ⟨hobj, hother⟩ := hs.setCall h hc hpend hcall
      refine ht.supplied (h.setCall hc hpend) (fun _ u hu => ?_) hobj hother
      obtain rfl : t = u := Option.some.inj (hc.symm.trans hu)
      exact Function.update_self ..
  | plain _ hp => exact hp.supplied h h' hen hs

lemma Initial.supplied (h : k.Initial) : k.Supplied := by
  obtain ⟨layout, periodTicks, execTicks, hboot⟩ := h.boot
  obtain ⟨-, -, -, -, -, hwaiters, -⟩ := Sched.boot_base hboot
  intro o hne
  exact absurd (by rw [hwaiters]) hne

/-- **No wake-up is lost.**  In every run and for every queue: while a receiver is blocked, there
are at most as many messages as receivers that are due to retry, and while a sender is blocked, at
most as many free slots as senders that are due. -/
theorem reachable_wakeups (h : k.Reachable) (i : ℕ) :
    (k.sched.waiters (.messageQueueReceive i) ≠ [] →
      (k.queue i).len ≤ (k.due (.messageQueueReceive i)).card) ∧
    (k.sched.waiters (.messageQueueSend i) ≠ [] →
      (k.queue i).cap.n - (k.queue i).len ≤ (k.due (.messageQueueSend i)).card) := by
  have hs : k.Supplied := by
    induction h with
    | start h => exact h.supplied
    | step hr hstep ih =>
        obtain ⟨ev, reply, hen, hrun⟩ := hstep
        have hinv := reachable_inv hr
        exact (hinv.does hen hrun).supplied hinv hen ih
  exact ⟨hs _, hs _⟩

/-- Two receivers are blocked on an empty queue, and an interrupt sends one message. -/
def receiversTrial : Option (Kernel ℕ) := trial next
  [.spawnCfs 1 10, .spawnCfs 2 10, .start 0, .tick ⟨some 499, some 0⟩ 8,
    .schedule ⟨some 499, some 0⟩, .tick ⟨some 499, some 0⟩ 8, .schedule ⟨some 499, some 0⟩,
    .receive 0 true ⟨some 499, some 399⟩, .schedule ⟨some 499, some 399⟩,
    .tick ⟨some 899, some 0⟩ 8, .schedule ⟨some 899, some 0⟩,
    .receive 0 true ⟨some 499, some 399⟩, .trySend 0 7]

/-- One of them is due and the other one stays blocked. -/
theorem reachable_wakeups_receivers : ∃ k, receiversTrial = some k ∧
    k.sched.waiters (.messageQueueReceive 0) = [2] ∧ k.due (.messageQueueReceive 0) = {1} ∧
    (k.queue 0).len = 1 ∧
    (k.sched.waiters (.messageQueueReceive 0) ≠ [] →
      (k.queue 0).len ≤ (k.due (.messageQueueReceive 0)).card) ∧
    (k.sched.waiters (.messageQueueSend 0) ≠ [] →
      (k.queue 0).cap.n - (k.queue 0).len ≤ (k.due (.messageQueueSend 0)).card) := by
  have htest : receiversTrial.any (fun k =>
      k.sched.waiters (.messageQueueReceive 0) == [2] &&
      decide (k.due (.messageQueueReceive 0) = {1}) && (k.queue 0).len == 1) = true := by
    decide +kernel
  obtain ⟨k, hk, htest⟩ := (Option.any_eq_true ..).mp htest
  simp only [Bool.and_eq_true, beq_iff_eq, decide_eq_true_eq] at htest
  obtain ⟨⟨hwaiters, hdue⟩, hlen⟩ := htest
  exact ⟨k, hk, hwaiters, hdue, hlen, reachable_wakeups (trial_reachable hk) 0⟩

end Kernel

end Rtsched

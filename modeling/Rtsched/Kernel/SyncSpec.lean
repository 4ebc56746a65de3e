import Rtsched.Kernel.Reach

/-!
What the steps do to the semaphores and to the mutexes.

* `Kernel.exec_words`, `Kernel.exec_mutex`: **only the operations of semaphores change their words,
  and only those of mutexes change them**.
* `Kernel.SemaphoreStep`, `Kernel.MutexStep`: what an operation of a semaphore or mutex does;
  `Kernel.exec_semaphore`, `Kernel.exec_mutexOp`: **every such operation does this**.
-/

namespace Rtsched

open Outcome

variable {α : Type}

/-- The semaphore that a step is an operation of. -/
def Event.semaphore : Event α → Option SemaphoreId
  | .tryTake i | .take i _ | .give i => some i
  | _ => none

/-- The mutex that a step is an operation of. -/
def Event.mutex : Event α → Option ℕ
  | .tryLock i | .lock i _ | .unlock i => some i
  | _ => none

/-! ### Waking a waiter -/

namespace Sched

variable {s s' : Sched} {o : WaitObject} {t : Tid}

/-- The waiter of an object with the least key; ties are decided by the address. -/
def FirstWaiter (s : Sched) (key : Tid → ℕ) (o : WaitObject) (t : Tid) : Prop :=
  t ∈ s.waiters o ∧ ∀ u ∈ s.waiters o, key t < key u ∨ (key t = key u ∧ t ≤ u)

/-- The thread `t`, and no other, has been woken from its wait for the object. -/
structure WakesOne (o : WaitObject) (t : Tid) (s s' : Sched) : Prop where
  ready : s'.state t = .ready
  left : t ∉ s'.waiters o
  state : ∀ u ≠ t, s'.state u = s.state u
  waits : ∀ u ≠ t, (u ∈ s'.waiters o ↔ u ∈ s.waiters o)

/-- The states and the waiters before the step are all that counts. -/
lemma WakesOne.congr {s₁ : Sched} (h : WakesOne o t s₁ s') (hstate : ∀ u, s₁.state u = s.state u)
    (hw : s₁.waiters = s.waiters) : WakesOne o t s s' :=
  ⟨h.ready, h.left, fun u hu => (h.state u hu).trans (hstate u),
    fun u hu => by rw [h.waits u hu, hw]⟩

/-- The waiters that stay registered are not woken. -/
lemma filter_waiters_eq_nil (h : s'.Inv) (hmem : ∀ t ∈ s.waiters o, t ∈ s'.waiters o) :
    ((s.waiters o).filter fun t => !(s'.state t).isBlocked) = [] := by
  refine List.filter_eq_nil_iff.mpr fun t ht => ?_
  have hsusp : s'.state t = .suspended := ((h.ok t).waits o (hmem t ht)).1
  rw [hsusp]
  decide

namespace Act

lemma wakesOne (h : s.Inv) (hact : Act (.wakes t o) s s') : WakesOne o t s s' where
  ready := by rw [hact.state_wakes, if_pos rfl]
  left ht := ((hact.mem_waiters h t o).mp ht).2 rfl
  state u hu := by rw [hact.state_wakes, if_neg hu]
  waits u hu := (hact.mem_waiters h u o).trans ⟨fun hw => hw.1, fun hw => ⟨hw, hu⟩⟩

/-- The thread that is woken is the one with the least key. -/
lemma firstWaiter (h : s.Inv) (hact : Act (.wakes t o) s s') {key : Tid → ℕ}
    (hkey : ∀ u ∈ s.waiters o, s.deadlineAt u = key u) : s.FirstWaiter key o t := by
  have hhead := hact.head?_wakes
  refine ⟨List.mem_of_mem_head? hhead, fun u hu => ?_⟩
  rw [← hkey t (List.mem_of_mem_head? hhead), ← hkey u hu]
  by_cases hut : u = t
  · rw [hut]
    exact Or.inr ⟨rfl, le_rfl⟩
  · have hlt : s.syncCmp t u = .lt := (h.tidy.waiters o).head_lt hhead hu hut
    rw [syncCmp, Ordered.keyCmp_eq_lt] at hlt
    rcases hlt with hlt | ⟨heq, hlt⟩
    · exact Or.inl (Nat.compare_eq_lt.mp hlt)
    · exact Or.inr ⟨Nat.compare_eq_eq.mp heq, hlt.le⟩

/-- Waking the first waiter wakes no other. -/
lemma filter_woken (h : s.Inv) (hact : Act (.wakes t o) s s') :
    ((s.waiters o).filter fun u => !(s'.state u).isBlocked) = [t] := by
  obtain ⟨l, hl⟩ := List.head?_eq_some_iff.mp hact.head?_wakes
  have hnodup : (t :: l).Nodup := hl ▸ (h.tidy.waiters o).nodup
  have hrest : (l.filter fun u => !(s'.state u).isBlocked) = [] := by
    refine List.filter_eq_nil_iff.mpr fun u hu => ?_
    have hut : u ≠ t := by
      rintro rfl
      exact (List.nodup_cons.mp hnodup).1 hu
    have hmem : u ∈ s.waiters o := by
      rw [hl]
      exact List.mem_cons_of_mem _ hu
    have hsusp : s.state u = .suspended := ((h.ok u).waits o hmem).1
    rw [hact.state_wakes, if_neg hut, hsusp]
    decide
  rw [hl, List.filter_cons, hrest, hact.state_wakes, if_pos rfl]
  rfl

end Act

end Sched

namespace Kernel

variable {k k' k'' : Kernel α} {ev : Event α} {reply : Reply α}

/-- The words and limits of the semaphores are as before. -/
structure SameWords (k k' : Kernel α) : Prop where
  word : k'.word = k.word
  maxCount : k'.maxCount = k.maxCount

/-- The semaphores and the mutexes are as before. -/
structure SameSync (k k' : Kernel α) : Prop extends SameWords k k' where
  mutex : k'.mutex = k.mutex

lemma SameWords.trans (h : SameWords k k') (h' : SameWords k' k'') : SameWords k k'' :=
  ⟨h'.word.trans h.word, h'.maxCount.trans h.maxCount⟩

lemma SameSync.trans (h : SameSync k k') (h' : SameSync k' k'') : SameSync k k'' :=
  ⟨h.toSameWords.trans h'.toSameWords, h'.mutex.trans h.mutex⟩

lemma sameSync_sched (k : Kernel α) (s : Sched) : SameSync k { k with sched := s } :=
  ⟨⟨rfl, rfl⟩, rfl⟩

lemma lift_sameSync {x : Except Fault Sched} (h : k.lift x = .ok (k', reply)) :
    SameSync k k' := by
  obtain ⟨s, -, heq⟩ := bind_eq_ok.mp h
  obtain ⟨rfl, -⟩ := Prod.mk.inj (Except.ok.inj heq)
  exact sameSync_sched k s

lemma blockOn_sameSync {o : WaitObject} {t : Tid} {port : TimerPort} {b : Option ℕ}
    (h : k.blockOn o t port = .ok (k', b)) : SameSync k k' := by
  obtain ⟨r, -, heq⟩ := bind_eq_ok.mp h
  cases r with
  | none =>
      obtain ⟨rfl, -⟩ := Prod.mk.inj (Except.ok.inj heq)
      exact sameSync_sched k k.sched
  | some p =>
      obtain ⟨rfl, -⟩ := Prod.mk.inj (Except.ok.inj heq)
      exact sameSync_sched k p.1

/-! ### Message queues -/

lemma trySend_sameSync {i : ℕ} {x : α} (h : k.trySend i x = .ok (k', reply)) :
    SameSync k k' := by
  obtain ⟨pushed, -, h⟩ := bind_eq_ok.mp h
  cases pushed with
  | none =>
      obtain ⟨rfl, -⟩ := Prod.mk.inj (Except.ok.inj h)
      exact sameSync_sched k k.sched
  | some r =>
      obtain ⟨⟨s, w⟩, -, h⟩ := bind_eq_ok.mp h
      obtain ⟨rfl, -⟩ := Prod.mk.inj (Except.ok.inj h)
      exact ⟨⟨rfl, rfl⟩, rfl⟩

lemma tryReceive_sameSync {i : ℕ} (h : k.tryReceive i = .ok (k', reply)) : SameSync k k' := by
  obtain ⟨popped, -, h⟩ := bind_eq_ok.mp h
  cases popped with
  | none =>
      obtain ⟨rfl, -⟩ := Prod.mk.inj (Except.ok.inj h)
      exact sameSync_sched k k.sched
  | some p =>
      obtain ⟨⟨s, w⟩, -, h⟩ := bind_eq_ok.mp h
      obtain ⟨rfl, -⟩ := Prod.mk.inj (Except.ok.inj h)
      exact ⟨⟨rfl, rfl⟩, rfl⟩

lemma block_sameSync {o : WaitObject} {call : Call α} {canBlock : Bool} {port : TimerPort}
    (h : k.block o call canBlock port = .ok (k', reply)) : SameSync k k' := by
  unfold block at h
  split at h
  · obtain ⟨rfl, -⟩ := Prod.mk.inj (Except.ok.inj h)
    exact sameSync_sched k k.sched
  · split at h
    · obtain ⟨rfl, -⟩ := Prod.mk.inj (Except.ok.inj h)
      exact sameSync_sched k k.sched
    · obtain ⟨⟨k₁, b⟩, hb, h⟩ := bind_eq_ok.mp h
      have hs := blockOn_sameSync hb
      simp only at h
      split at h
      · obtain ⟨rfl, -⟩ := Prod.mk.inj (Except.ok.inj h)
        exact ⟨⟨hs.word, hs.maxCount⟩, hs.mutex⟩
      · obtain ⟨rfl, -⟩ := Prod.mk.inj (Except.ok.inj h)
        exact hs

lemma send_sameSync {i : ℕ} {x : α} {canBlock : Bool} {port : TimerPort}
    (h : k.send i x canBlock port = .ok (k', reply)) : SameSync k k' := by
  obtain ⟨⟨k₁, r⟩, ht, h⟩ := bind_eq_ok.mp h
  have hs := trySend_sameSync ht
  simp only at h
  split at h
  · exact hs.trans (block_sameSync h)
  · obtain ⟨rfl, -⟩ := Prod.mk.inj (Except.ok.inj h)
    exact hs

lemma receive_sameSync {i : ℕ} {canBlock : Bool} {port : TimerPort}
    (h : k.receive i canBlock port = .ok (k', reply)) : SameSync k k' := by
  obtain ⟨⟨k₁, r⟩, ht, h⟩ := bind_eq_ok.mp h
  have hs := tryReceive_sameSync ht
  simp only at h
  split at h
  · exact hs.trans (block_sameSync h)
  · obtain ⟨rfl, -⟩ := Prod.mk.inj (Except.ok.inj h)
    exact hs

lemma retry_sameSync {port : TimerPort} (h : k.retry port = .ok (k', reply)) : SameSync k k' := by
  unfold retry at h
  split at h
  · cases h
  · rename_i t _
    have hcall : SameSync k (k.setCall t none) := ⟨⟨rfl, rfl⟩, rfl⟩
    split at h
    · cases h
    · exact hcall.trans (send_sameSync h)
    · exact hcall.trans (receive_sameSync h)

/-! ### Semaphores -/

lemma tryTake_mutex (k : Kernel α) (i : SemaphoreId) : (k.tryTake i).1.mutex = k.mutex := by
  unfold tryTake
  split
  · rfl
  · rfl

lemma take_mutex {i : SemaphoreId} {port : TimerPort} (h : k.take i port = .ok (k', reply)) :
    k'.mutex = k.mutex := by
  unfold take at h
  split at h
  · obtain ⟨rfl, -⟩ := Prod.mk.inj (Except.ok.inj h)
    rfl
  · split at h
    · obtain ⟨rfl, -⟩ := Prod.mk.inj (Except.ok.inj h)
      rfl
    · obtain ⟨⟨k₁, b⟩, hb, h⟩ := bind_eq_ok.mp h
      obtain ⟨rfl, -⟩ := Prod.mk.inj (Except.ok.inj h)
      exact (blockOn_sameSync hb).mutex

lemma give_mutex {i : SemaphoreId} (h : k.give i = .ok (k', reply)) : k'.mutex = k.mutex := by
  obtain ⟨⟨s, w⟩, -, h⟩ := bind_eq_ok.mp h
  simp only at h
  split at h
  · obtain ⟨rfl, -⟩ := Prod.mk.inj (Except.ok.inj h)
    rfl
  · split at h
    · obtain ⟨rfl, -⟩ := Prod.mk.inj (Except.ok.inj h)
      rfl
    · obtain ⟨rfl, -⟩ := Prod.mk.inj (Except.ok.inj h)
      rfl

/-- **Only the operations of mutexes change them.** -/
theorem exec_mutex (h : k.exec ev = .ok (k', reply)) (hev : ev.mutex = none) :
    k'.mutex = k.mutex := by
  cases ev with
  | setRtThreadStartTime startTime =>
      obtain rfl := congrArg Prod.fst (Except.ok.inj h)
      rfl
  | tryTake i =>
      obtain rfl := congrArg Prod.fst (Except.ok.inj h)
      exact tryTake_mutex k i
  | take i port => exact take_mutex h
  | give i => exact give_mutex h
  | tryLock i => cases hev
  | lock i port => cases hev
  | unlock i => cases hev
  | trySend i x => exact (trySend_sameSync h).mutex
  | tryReceive i => exact (tryReceive_sameSync h).mutex
  | send i x canBlock port => exact (send_sameSync h).mutex
  | receive i canBlock port => exact (receive_sameSync h).mutex
  | retry port => exact (retry_sameSync h).mutex
  | _ => exact (lift_sameSync h).mutex

/-! ### Mutexes -/

lemma tryLock_words (k : Kernel α) (i : ℕ) : SameWords k (k.tryLock i).1 := by
  unfold tryLock
  split
  · exact ⟨rfl, rfl⟩
  · exact ⟨rfl, rfl⟩
  · exact ⟨rfl, rfl⟩

lemma boostOwnerDeadline_words {i : ℕ} {owner waiter : Tid} {deadlineAt : ℕ}
    (h : k.boostOwnerDeadline i owner waiter deadlineAt = .ok k') : SameWords k k' := by
  unfold boostOwnerDeadline at h
  simp only at h
  split at h
  · obtain rfl := Except.ok.inj h
    exact ⟨rfl, rfl⟩
  · split at h
    · obtain rfl := Except.ok.inj h
      exact ⟨rfl, rfl⟩
    · obtain ⟨s, -, h⟩ := bind_eq_ok.mp h
      obtain rfl := Except.ok.inj h
      exact ⟨rfl, rfl⟩

lemma lock_words {i : ℕ} {port : TimerPort} (h : k.lock i port = .ok (k', reply)) :
    SameWords k k' := by
  unfold lock at h
  split at h
  · obtain ⟨rfl, -⟩ := Prod.mk.inj (Except.ok.inj h)
    exact ⟨rfl, rfl⟩
  · obtain ⟨rfl, -⟩ := Prod.mk.inj (Except.ok.inj h)
    exact ⟨rfl, rfl⟩
  · split at h
    · obtain ⟨rfl, -⟩ := Prod.mk.inj (Except.ok.inj h)
      exact ⟨rfl, rfl⟩
    · obtain ⟨⟨k₁, b⟩, hb, h⟩ := bind_eq_ok.mp h
      have hs := (blockOn_sameSync hb).toSameWords
      cases b with
      | none =>
          obtain ⟨rfl, -⟩ := Prod.mk.inj (Except.ok.inj h)
          exact hs
      | some deadlineAt =>
          obtain ⟨k₂, hboost, h⟩ := bind_eq_ok.mp h
          obtain ⟨rfl, -⟩ := Prod.mk.inj (Except.ok.inj h)
          exact hs.trans (boostOwnerDeadline_words hboost)

lemma restoreOwnerDeadline_words {i : ℕ} {owner : Option Tid}
    (h : k.restoreOwnerDeadline i owner = .ok k') : SameWords k k' := by
  unfold restoreOwnerDeadline at h
  simp only at h
  split at h
  · obtain ⟨s, -, h⟩ := bind_eq_ok.mp h
    obtain rfl := Except.ok.inj h
    exact ⟨rfl, rfl⟩
  · obtain rfl := Except.ok.inj h
    exact ⟨rfl, rfl⟩

lemma unlock_words {i : ℕ} (h : k.unlock i = .ok (k', reply)) : SameWords k k' := by
  unfold unlock at h
  split at h
  · cases h
  · obtain ⟨k₁, hrestore, h⟩ := bind_eq_ok.mp h
    obtain ⟨⟨s, w⟩, -, h⟩ := bind_eq_ok.mp h
    obtain ⟨rfl, -⟩ := Prod.mk.inj (Except.ok.inj h)
    have hs := restoreOwnerDeadline_words hrestore
    exact ⟨hs.word, hs.maxCount⟩

/-- **Only the operations of semaphores change their words.** -/
theorem exec_words (h : k.exec ev = .ok (k', reply)) (hev : ev.semaphore = none) :
    SameWords k k' := by
  cases ev with
  | setRtThreadStartTime startTime =>
      obtain rfl := congrArg Prod.fst (Except.ok.inj h)
      exact ⟨rfl, rfl⟩
  | tryTake i => cases hev
  | take i port => cases hev
  | give i => cases hev
  | tryLock i =>
      obtain rfl := congrArg Prod.fst (Except.ok.inj h)
      exact tryLock_words k i
  | lock i port => exact lock_words h
  | unlock i => exact unlock_words h
  | trySend i x => exact (trySend_sameSync h).toSameWords
  | tryReceive i => exact (tryReceive_sameSync h).toSameWords
  | send i x canBlock port => exact (send_sameSync h).toSameWords
  | receive i canBlock port => exact (receive_sameSync h).toSameWords
  | retry port => exact (retry_sameSync h).toSameWords
  | _ => exact (lift_sameSync h).toSameWords

/-! ### The operations of a semaphore -/

/-- What an operation of a semaphore does: a token is taken, the caller is parked or refused, and a
given token goes to the first waiter or is stored unless the semaphore is full. -/
inductive SemaphoreStep (i : SemaphoreId) (k : Kernel α) : Event α → Kernel α → Reply α → Prop
  | taken {ev : Event α} (hev : ev = .tryTake i ∨ ∃ port, ev = .take i port)
      (hpos : 0 < k.word i) : SemaphoreStep i k ev (k.setWord i (k.word i - 1)) .done
  | parked {port : TimerPort} {t : Tid} {k' : Kernel α} (hzero : k.word i = 0)
      (hs : SameSync k k')
      (hact : Sched.Act (.blocks t i.object port.elapsedTicksSinceCurrentReload) k.sched k'.sched) :
      SemaphoreStep i k (.take i port) k' .blocked
  | refused {ev : Event α} {status : Status} (hev : ev = .tryTake i ∨ ∃ port, ev = .take i port)
      (hzero : k.word i = 0) : SemaphoreStep i k ev k (.err status)
  | handed {t : Tid} {k' : Kernel α} (hs : SameSync k k')
      (hact : Sched.Act (.wakes t i.object) k.sched k'.sched) :
      SemaphoreStep i k (.give i) k' .done
  | stored (hnil : k.sched.waiters i.object = []) (hlt : k.word i < k.limit i) :
      SemaphoreStep i k (.give i) (k.setWord i (k.word i + 1)) .done
  | full (hnil : k.sched.waiters i.object = []) (hge : k.limit i ≤ k.word i) :
      SemaphoreStep i k (.give i) k (.err .full)

/-- **What an operation of a semaphore does.** -/
theorem exec_semaphore (h : k.sched.Inv) (hen : k.Enabled ev) {i : SemaphoreId}
    (hev : ev.semaphore = some i) :
    Ends Fault.Benign (k.exec ev) fun r => SemaphoreStep i k ev r.1 r.2 := by
  cases ev with
  | tryTake j =>
      obtain rfl : j = i := by simpa [Event.semaphore] using hev
      simp only [exec, tryTake]
      split
      · rename_i hpos
        exact .taken (Or.inl rfl) hpos
      · rename_i hpos
        exact .refused (Or.inl rfl) (by omega)
  | take j port =>
      obtain rfl : j = i := by simpa [Event.semaphore] using hev
      simp only [exec, take]
      split
      · rename_i hpos
        exact .taken (Or.inr ⟨port, rfl⟩) hpos
      · rename_i hpos
        have hzero : k.word j = 0 := by omega
        cases hc : k.sched.current with
        | none => exact .refused (Or.inr ⟨port, rfl⟩) hzero
        | some t =>
            simp only [blockOn]
            refine Ends.bind (P := fun p => (p = (k, none)) ∨ ∃ s deadlineAt,
              p = ({ k with sched := s }, some deadlineAt) ∧ Sched.Act
                (.blocks t j.object port.elapsedTicksSinceCurrentReload) k.sched s) ?_ ?_
            · refine (Sched.blockCurrentThreadOn_act h hen.1 hc j.object port).bind ?_
              rintro _ (⟨rfl, -⟩ | ⟨s, rfl, hact⟩)
              · exact Or.inl rfl
              · exact Or.inr ⟨s, _, rfl, hact⟩
            · rintro _ (rfl | ⟨s, deadlineAt, rfl, hact⟩)
              · exact .refused (Or.inr ⟨port, rfl⟩) hzero
              · exact .parked hzero (sameSync_sched k s) hact
  | give j =>
      obtain rfl : j = i := by simpa [Event.semaphore] using hev
      simp only [exec, give]
      refine (Sched.wakeFirst_act h j.object).bind ?_
      rintro ⟨s, waiter⟩ (⟨hnil, heq⟩ | ⟨t, hw, -, hact⟩)
      · obtain ⟨rfl, rfl⟩ := Prod.mk.inj heq
        simp only [Option.isSome_none, Bool.false_eq_true, if_false]
        split
        · rename_i hlt
          exact .stored hnil hlt
        · rename_i hlt
          exact .full hnil (not_lt.mp hlt)
      · replace hw : waiter = some t := hw
        subst hw
        exact .handed (sameSync_sched k s) hact
  | _ => cases hev

/-! ### The operations of a mutex -/

lemma setMutex_self (k : Kernel α) (i : ℕ) (m : MutexState) : (k.setMutex i m).mutex i = m :=
  Function.update_self ..

lemma setMutex_of_ne (k : Kernel α) {i j : ℕ} (hj : j ≠ i) (m : MutexState) :
    (k.setMutex i m).mutex j = k.mutex j := Function.update_of_ne hj ..

/-- The deadline of a thread may have been set, and with it the boost of the mutex; nothing else has
changed. -/
structure Adjusts (i : ℕ) (k k' : Kernel α) : Prop where
  mutex : ∀ j ≠ i, k'.mutex j = k.mutex j
  owner : (k'.mutex i).owner = (k.mutex i).owner
  sched : k'.sched = k.sched ∨ ∃ t, Sched.Act (.sets t) k.sched k'.sched

namespace Adjusts

variable {i : ℕ}

lemma inv (h : k.sched.Inv) (ha : Adjusts i k k') : k'.sched.Inv := by
  rcases ha.sched with heq | ⟨t, hact⟩
  · rw [heq]
    exact h
  · exact hact.inv h

lemma place (ha : Adjusts i k k') : k'.sched.place = k.sched.place := by
  rcases ha.sched with heq | ⟨t, hact⟩
  · rw [heq]
  · exact hact.sets_place

lemma state (ha : Adjusts i k k') (t : Tid) : k'.sched.state t = k.sched.state t :=
  congrArg Place.state (congrFun ha.place t)

lemma waiters (ha : Adjusts i k k') : k'.sched.waiters = k.sched.waiters := by
  rcases ha.sched with heq | ⟨t, hact⟩
  · rw [heq]
  · cases hact with
    | sets _ _ _ hsets => exact hsets.waiters

lemma deadlineAt (ha : Adjusts i k k') : k'.sched.deadlineAt = k.sched.deadlineAt := by
  rcases ha.sched with heq | ⟨t, hact⟩
  · rw [heq]
  · cases hact with
    | sets _ _ _ hsets => exact hsets.keys

end Adjusts

/-- A boost adjusts the deadline of the owner. -/
lemma boostOwnerDeadline_adjusts {i : ℕ} {owner waiter : Tid} {deadlineAt : ℕ} (hs : k.sched.Inv)
    (h : k.boostOwnerDeadline i owner waiter deadlineAt = .ok k') : Adjusts i k k' := by
  unfold boostOwnerDeadline at h
  simp only at h
  split at h
  · obtain rfl := Except.ok.inj h
    exact ⟨fun _ _ => rfl, rfl, Or.inl rfl⟩
  · split at h
    · obtain rfl := Except.ok.inj h
      exact ⟨fun _ _ => rfl, rfl, Or.inl rfl⟩
    · obtain ⟨s, hset, h⟩ := bind_eq_ok.mp h
      obtain rfl := Except.ok.inj h
      refine ⟨fun j hj => setMutex_of_ne _ hj _, ?_,
        Or.inr ⟨owner, (Sched.setThreadSchedulerExpireAt_act hs owner _).value hset⟩⟩
      rw [setMutex_self]
      split
      · rfl
      · rfl

/-- Restoring adjusts the deadline of the owner. -/
lemma restoreOwnerDeadline_adjusts {i : ℕ} {t : Tid} (hs : k.sched.Inv)
    (h : k.restoreOwnerDeadline i (some t) = .ok k') : Adjusts i k k' := by
  unfold restoreOwnerDeadline at h
  simp only at h
  split at h
  · obtain ⟨s, hset, h⟩ := bind_eq_ok.mp h
    obtain rfl := Except.ok.inj h
    refine ⟨fun j hj => setMutex_of_ne _ hj _, ?_,
      Or.inr ⟨t, (Sched.setThreadSchedulerExpireAt_act hs t _).value hset⟩⟩
    rw [setMutex_self]
  · obtain rfl := Except.ok.inj h
    exact ⟨fun _ _ => rfl, rfl, Or.inl rfl⟩

/-- What an operation of a mutex does: a free mutex is taken, the caller is parked or refused, and a
mutex that is dropped goes to the first waiter or becomes free. -/
inductive MutexStep (i : ℕ) (k : Kernel α) : Event α → Kernel α → Reply α → Prop
  | taken {ev : Event α} {t : Tid} (hev : ev = .tryLock i ∨ ∃ port, ev = .lock i port)
      (hc : k.sched.current = some t) (hfree : (k.mutex i).owner = none) :
      MutexStep i k ev (k.setMutex i { k.mutex i with owner := some t }) .done
  | refused {ev : Event α} {status : Status} (hev : ev = .tryLock i ∨ ∃ port, ev = .lock i port) :
      MutexStep i k ev k (.err status)
  | parked {port : TimerPort} {t owner : Tid} {s : Sched} {k' : Kernel α}
      (howner : (k.mutex i).owner = some owner) (hne : owner ≠ t)
      (hact : Sched.Act (.blocks t (.mutex i) port.elapsedTicksSinceCurrentReload) k.sched s)
      (hboost : boostOwnerDeadline { k with sched := s } i owner t
        (k.sched.threadSchedulerExpireAt t) = .ok k') :
      MutexStep i k (.lock i port) k' .blocked
  | released {t : Tid} {k₁ : Kernel α} (hc : k.sched.current = some t)
      (howner : (k.mutex i).owner = some t) (hrestore : k.restoreOwnerDeadline i (some t) = .ok k₁)
      (hnil : k₁.sched.waiters (.mutex i) = []) :
      MutexStep i k (.unlock i) (k₁.setMutex i { k₁.mutex i with owner := none }) .done
  | handed {t u : Tid} {k₁ : Kernel α} {s : Sched} (hc : k.sched.current = some t)
      (howner : (k.mutex i).owner = some t) (hrestore : k.restoreOwnerDeadline i (some t) = .ok k₁)
      (hact : Sched.Act (.wakes u (.mutex i)) k₁.sched s) :
      MutexStep i k (.unlock i)
        (setMutex { k₁ with sched := s } i { k₁.mutex i with owner := some u }) .done

/-- **What an operation of a mutex does.** -/
theorem exec_mutexOp (h : k.sched.Inv) (hen : k.Enabled ev) {i : ℕ} (hev : ev.mutex = some i) :
    Ends Fault.Benign (k.exec ev) fun r => MutexStep i k ev r.1 r.2 := by
  cases ev with
  | tryLock j =>
      obtain rfl : j = i := by simpa [Event.mutex] using hev
      simp only [exec, tryLock]
      split
      · exact .refused (Or.inl rfl)
      · rename_i t hc hfree
        exact .taken (Or.inl rfl) hc hfree
      · exact .refused (Or.inl rfl)
  | lock j port =>
      obtain rfl : j = i := by simpa [Event.mutex] using hev
      simp only [exec, lock]
      split
      · exact .refused (Or.inr ⟨port, rfl⟩)
      · rename_i t hc hfree
        exact .taken (Or.inr ⟨port, rfl⟩) hc hfree
      · rename_i t owner hc howner
        split
        · exact .refused (Or.inr ⟨port, rfl⟩)
        · rename_i hne
          simp only [blockOn]
          refine Ends.bind (P := fun p => (p = (k, none)) ∨ ∃ s,
            p = ({ k with sched := s }, some (k.sched.threadSchedulerExpireAt t)) ∧ Sched.Act
              (.blocks t (.mutex j) port.elapsedTicksSinceCurrentReload) k.sched s) ?_ ?_
          · refine (Sched.blockCurrentThreadOn_act h hen.1 hc (.mutex j) port).bind ?_
            rintro _ (⟨rfl, -⟩ | ⟨s, rfl, hact⟩)
            · exact Or.inl rfl
            · exact Or.inr ⟨s, rfl, hact⟩
          · rintro _ (rfl | ⟨s, rfl, hact⟩)
            · exact .refused (Or.inr ⟨port, rfl⟩)
            · refine (boostOwnerDeadline_spec (k := { k with sched := s }) (hact.inv h) j owner t
                _).named.bind ?_
              rintro k₂ ⟨hboost, -⟩
              exact .parked howner hne hact hboost
  | unlock j =>
      obtain rfl : j = i := by simpa [Event.mutex] using hev
      obtain ⟨hmode, hsome, howner⟩ := hen
      obtain ⟨t, ht⟩ := Option.isSome_iff_exists.mp hsome
      have hc : k.sched.current = some t := howner.symm.trans ht
      simp only [exec, unlock]
      rw [if_neg (not_not.mpr howner), hc]
      refine (restoreOwnerDeadline_spec h j (some t)).named.bind ?_
      rintro k₁ ⟨hrestore, -, -, -, ls, hpath, -⟩
      refine (Sched.wakeFirst_act (hpath.inv h) (.mutex j)).bind ?_
      rintro ⟨s, waiter⟩ (⟨hnil, heq⟩ | ⟨u, hw, -, hact⟩)
      · obtain ⟨rfl, rfl⟩ := Prod.mk.inj heq
        exact .released hc ht hrestore hnil
      · replace hw : waiter = some u := hw
        subst hw
        exact .handed hc ht hrestore hact
  | _ => cases hev

/-- A step that is no operation of the mutex leaves its owner alone. -/
lemma owner_of_ne (hs : k.sched.Inv) (hen : k.Enabled ev) (hrun : k.exec ev = .ok (k', reply))
    {i : ℕ} (hi : ev.mutex ≠ some i) : (k'.mutex i).owner = (k.mutex i).owner := by
  cases hev : ev.mutex with
  | none => rw [exec_mutex hrun hev]
  | some j =>
      have hij : i ≠ j := fun heq => hi (by rw [hev, heq])
      cases (exec_mutexOp hs hen hev).value hrun with
      | taken _ _ _ => exact congrArg _ (Function.update_of_ne hij ..)
      | refused _ => rfl
      | parked _ _ hact hboost =>
          have hadj := boostOwnerDeadline_adjusts (hact.inv hs) hboost
          rw [hadj.mutex i hij]
      | released _ _ hrestore _ =>
          have hadj := restoreOwnerDeadline_adjusts hs hrestore
          exact congrArg MutexState.owner ((Function.update_of_ne hij ..).trans (hadj.mutex i hij))
      | handed _ _ hrestore _ =>
          have hadj := restoreOwnerDeadline_adjusts hs hrestore
          exact congrArg MutexState.owner ((Function.update_of_ne hij ..).trans (hadj.mutex i hij))

end Kernel

end Rtsched

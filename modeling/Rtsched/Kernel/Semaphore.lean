import Rtsched.Kernel.SyncSpec

/-!
The tokens of the semaphores over whole runs.

* `Tokens`: a kernel with the history of its semaphores: the gives that returned `Ok`, the takes
  that completed at once and the blocked takes that were woken.
* `Tokens.Conserved`: the balance of one semaphore; `Tokens.Inv.step`: every step keeps it.
* `Tokens.reachable_tokens`: **no token is lost or doubled**, and a waiter is woken only by a give
  that hands it a token, in the order of the captured deadlines.
-/

namespace Rtsched

open Outcome

variable {α : Type}

/-- The step gives a token to the semaphore. -/
def Event.isGive (i : SemaphoreId) : Event α → Bool
  | .give j => j = i
  | _ => false

/-- The step takes a token from the semaphore, if it succeeds at once. -/
def Event.isTake (i : SemaphoreId) : Event α → Bool
  | .tryTake j | .take j _ => j = i
  | _ => false

def Reply.isDone : Reply α → Bool
  | .done => true
  | _ => false

/-- A kernel with the history of its semaphores; `captured` is the deadline each thread had when it
last blocked in a take. -/
structure Tokens (α : Type) where
  kernel : Kernel α
  initial : SemaphoreId → ℕ
  gives : SemaphoreId → ℕ
  taken : SemaphoreId → ℕ
  woken : SemaphoreId → ℕ
  captured : Tid → ℕ

namespace Tokens

variable {c c' : Tokens α} {i : SemaphoreId} {ev : Event α} {k' : Kernel α} {reply : Reply α}

/-- The captured deadlines after a step. -/
def capture (c : Tokens α) (ev : Event α) (reply : Reply α) (t : Tid) : ℕ :=
  match ev, reply with
  | .take _ _, .blocked =>
      if c.kernel.sched.current = some t then c.kernel.sched.threadSchedulerExpireAt t
      else c.captured t
  | _, _ => c.captured t

/-- The history after a step.  A blocked take has been woken when its thread is no longer
blocked. -/
def after (c : Tokens α) (ev : Event α) (k' : Kernel α) (reply : Reply α) : Tokens α where
  kernel := k'
  initial := c.initial
  gives i := c.gives i + if ev.isGive i && reply.isDone then 1 else 0
  taken i := c.taken i + if ev.isTake i && reply.isDone then 1 else 0
  woken i := c.woken i +
    ((c.kernel.sched.waiters i.object).filter fun t => !(k'.sched.state t).isBlocked).length
  captured := c.capture ev reply

/-- One step. -/
def Step (c c' : Tokens α) : Prop :=
  ∃ ev k' reply, c.kernel.Enabled ev ∧ c.kernel.exec ev = .ok (k', reply) ∧ c' = c.after ev k' reply

/-- At the start the words are the initial counts. -/
structure Initial (c : Tokens α) : Prop where
  kernel : c.kernel.Initial
  initial : c.initial = c.kernel.word
  gives : ∀ i, c.gives i = 0
  taken : ∀ i, c.taken i = 0
  woken : ∀ i, c.woken i = 0

/-- The states of the runs with their history. -/
abbrev Reachable (c : Tokens α) : Prop := Runs.Reach Initial Step c

/-- The balance of a semaphore. -/
structure Conserved (c : Tokens α) (i : SemaphoreId) : Prop where
  le : c.kernel.word i ≤ c.kernel.limit i
  empty : c.kernel.sched.waiters i.object ≠ [] → c.kernel.word i = 0
  balance : c.initial i + c.gives i = c.kernel.word i + c.taken i + c.woken i
  captured : ∀ t ∈ c.kernel.sched.waiters i.object, c.kernel.sched.deadlineAt t = c.captured t

structure Inv (c : Tokens α) : Prop where
  kernel : c.kernel.Inv
  conserved : ∀ i, c.Conserved i

/-! ### The waiters of a semaphore -/

lemma object_injective {i j : SemaphoreId} (h : i.object = j.object) : i = j := by
  cases i <;> cases j <;> simp_all [SemaphoreId.object]

lemma isQueue_object (i : SemaphoreId) : i.object.isQueue = false := by
  cases i <;> rfl

lemma object_ne_of_semaphore_ne (h : ev.semaphore ≠ some i) : ev.object ≠ some i.object := by
  intro ho
  cases ev with
  | take j port => exact h (congrArg some (object_injective (Option.some.inj ho)))
  | give j => exact h (congrArg some (object_injective (Option.some.inj ho)))
  | lock j port =>
      cases i <;> cases ho
  | unlock j =>
      cases i <;> cases ho
  | _ => cases ho

lemma isGive_eq_false (h : ev.semaphore ≠ some i) : ev.isGive i = false := by
  cases ev <;> simp_all [Event.isGive, Event.semaphore]

lemma isTake_eq_false (h : ev.semaphore ≠ some i) : ev.isTake i = false := by
  cases ev <;> simp_all [Event.isTake, Event.semaphore]

/-- The operations of other objects leave the waiters alone. -/
lemma waiters_of_ne (h : c.Inv) (hen : c.kernel.Enabled ev)
    (hrun : c.kernel.exec ev = .ok (k', reply)) (hi : ev.semaphore ≠ some i) (t : Tid) :
    (t ∈ k'.sched.waiters i.object ↔ t ∈ c.kernel.sched.waiters i.object) ∧
      (t ∈ c.kernel.sched.waiters i.object →
        k'.sched.deadlineAt t = c.kernel.sched.deadlineAt t) :=
  h.kernel.waiters_of_ne hen hrun (object_ne_of_semaphore_ne hi) (isQueue_object i) t

/-! ### One step -/

/-- The words of the other semaphores. -/
lemma word_of_ne (h : c.Inv) (hen : c.kernel.Enabled ev)
    (hrun : c.kernel.exec ev = .ok (k', reply)) (hi : ev.semaphore ≠ some i) :
    k'.word i = c.kernel.word i ∧ k'.maxCount = c.kernel.maxCount := by
  cases hev : ev.semaphore with
  | none =>
      have hs := Kernel.exec_words hrun hev
      rw [hs.word]
      exact ⟨rfl, hs.maxCount⟩
  | some j =>
      have hij : i ≠ j := fun heq => hi (by rw [hev, heq])
      cases (Kernel.exec_semaphore h.kernel.sched hen hev).value hrun with
      | taken _ _ => exact ⟨Function.update_of_ne hij .., rfl⟩
      | parked _ hs _ => exact ⟨congrFun hs.word i, hs.maxCount⟩
      | refused _ _ => exact ⟨rfl, rfl⟩
      | handed hs _ => exact ⟨congrFun hs.word i, hs.maxCount⟩
      | stored _ _ => exact ⟨Function.update_of_ne hij .., rfl⟩
      | full _ _ => exact ⟨rfl, rfl⟩

lemma limit_congr {k k' : Kernel α} (h : k'.maxCount = k.maxCount) (i : SemaphoreId) :
    k'.limit i = k.limit i := by
  cases i with
  | binary i => rfl
  | counting i => exact congrFun h i

/-- Only a take that blocks captures a deadline, and it captures that of the current thread. -/
lemma capture_eq (h : c.Inv) (hen : c.kernel.Enabled ev) {t : Tid} {o : WaitObject}
    (ht : t ∈ c.kernel.sched.waiters o) : c.capture ev reply t = c.captured t := by
  unfold capture
  split
  · refine if_neg fun hc => ?_
    have hawake := h.kernel.sched.awake hen.1 t hc
    exact h.kernel.sched.notMem_waiters (ThreadState.ne_suspended hawake) o ht
  · rfl

/-- A step of another object keeps the balance of the semaphore. -/
lemma Conserved.of_ne (h : c.Inv) (hen : c.kernel.Enabled ev)
    (hrun : c.kernel.exec ev = .ok (k', reply)) (hi : ev.semaphore ≠ some i) :
    (c.after ev k' reply).Conserved i := by
  have hc := h.conserved i
  have hinv' := (h.kernel.does hen hrun).inv h.kernel
  obtain ⟨hword, hmax⟩ := word_of_ne h hen hrun hi
  have hmem := waiters_of_ne h hen hrun hi
  refine ⟨?_, fun hne => ?_, ?_, fun t ht => ?_⟩
  · change k'.word i ≤ k'.limit i
    rw [hword, limit_congr hmax]
    exact hc.le
  · change k'.word i = 0
    rw [hword]
    refine hc.empty fun hnil => ?_
    obtain ⟨t, ht⟩ := List.exists_mem_of_ne_nil _ hne
    have hold := ((hmem t).1).mp ht
    rw [hnil] at hold
    cases hold
  · have hnone := Sched.filter_waiters_eq_nil (s := c.kernel.sched) (o := i.object) hinv'.sched
      fun t ht => ((hmem t).1).mpr ht
    simp only [after, hword, isGive_eq_false hi, isTake_eq_false hi, hnone, Bool.false_and,
      Bool.false_eq_true, if_false, List.length_nil, Nat.add_zero]
    exact hc.balance
  · have hold := ((hmem t).1).mp ht
    change k'.sched.deadlineAt t = c.capture ev reply t
    rw [(hmem t).2 hold, capture_eq h hen hold]
    exact hc.captured t hold

/-- A step that leaves the scheduler alone wakes no waiter. -/
lemma woken_self (h : c.Inv) (i : SemaphoreId) :
    ((c.kernel.sched.waiters i.object).filter
      fun t => !(c.kernel.sched.state t).isBlocked).length = 0 := by
  rw [Sched.filter_waiters_eq_nil h.kernel.sched fun _ ht => ht]
  rfl

/-- A take that completes at once. -/
lemma Conserved.taken (h : c.Inv) (hev : ev = .tryTake i ∨ ∃ port, ev = .take i port)
    (hpos : 0 < c.kernel.word i) :
    (c.after ev (c.kernel.setWord i (c.kernel.word i - 1)) .done).Conserved i := by
  have hc := h.conserved i
  have hword : (c.kernel.setWord i (c.kernel.word i - 1)).word i = c.kernel.word i - 1 :=
    Function.update_self ..
  have hcapture : ∀ t, c.capture ev .done t = c.captured t := by
    rcases hev with rfl | ⟨port, rfl⟩ <;> exact fun _ => rfl
  have hgive : ev.isGive i = false := by
    rcases hev with rfl | ⟨port, rfl⟩ <;> rfl
  have htake : ev.isTake i = true := by
    rcases hev with rfl | ⟨port, rfl⟩ <;> simp [Event.isTake]
  have hle := hc.le
  have hbal := hc.balance
  have hwoken := woken_self h i
  refine ⟨?_, fun hne => ?_, ?_, fun t ht => ?_⟩
  · change (c.kernel.setWord i (c.kernel.word i - 1)).word i ≤ c.kernel.limit i
    rw [hword]
    omega
  · -- with a waiter there is no token to take
    have hzero := hc.empty hne
    omega
  · simp only [after, hgive, htake, Reply.isDone, Bool.false_and, Bool.true_and,
      Bool.false_eq_true, if_false, if_true, Kernel.setWord, Function.update_self]
    omega
  · change c.kernel.sched.deadlineAt t = c.capture ev .done t
    rw [hcapture]
    exact hc.captured t ht

/-- A take that blocks. -/
lemma Conserved.parked (h : c.Inv) {port : TimerPort} (hen : c.kernel.Enabled (.take i port))
    {t : Tid} (hzero : c.kernel.word i = 0)
    (hs : Kernel.SameSync c.kernel k')
    (hact : Sched.Act (.blocks t i.object port.elapsedTicksSinceCurrentReload) c.kernel.sched
      k'.sched) :
    (c.after (.take i port) k' .blocked).Conserved i := by
  have hc := h.conserved i
  have hinv' := hact.inv h.kernel.sched
  have hmem := fun u => hact.mem_waiters h.kernel.sched u i.object
  have hcur : c.kernel.sched.current = some t := hact.acting.current
  have hword : k'.word i = c.kernel.word i := congrFun hs.word i
  refine ⟨?_, fun _ => ?_, ?_, fun u hu => ?_⟩
  · change k'.word i ≤ k'.limit i
    rw [hword, limit_congr hs.maxCount]
    exact hc.le
  · change k'.word i = 0
    rw [hword, hzero]
  · have hnone := Sched.filter_waiters_eq_nil (s := c.kernel.sched) (o := i.object) hinv'
      fun u hu => (hmem u).mpr (Or.inl hu)
    have hbal := hc.balance
    simp only [after, hword, hnone, Event.isGive, Event.isTake, Reply.isDone, Bool.and_false,
      Bool.false_eq_true, if_false, List.length_nil]
    omega
  · change k'.sched.deadlineAt u = c.capture (.take i port) .blocked u
    by_cases hut : u = t
    · subst hut
      rw [capture, if_pos hcur]
      exact hact.deadlineAt_blocks
    · have hold : u ∈ c.kernel.sched.waiters i.object :=
        ((hmem u).mp hu).resolve_right fun heq => hut heq.1
      rw [capture_eq h hen hold, hact.deadlineAt_eq h.kernel.sched hold hu]
      exact hc.captured u hold

/-- A give that hands its token to the first waiter. -/
lemma Conserved.handed (h : c.Inv) {t : Tid} (hs : Kernel.SameSync c.kernel k')
    (hact : Sched.Act (.wakes t i.object) c.kernel.sched k'.sched) :
    (c.after (.give i) k' .done).Conserved i := by
  have hc := h.conserved i
  have hmem := fun u => hact.mem_waiters h.kernel.sched u i.object
  have hword : k'.word i = c.kernel.word i := congrFun hs.word i
  obtain ⟨l, hwaiters⟩ : ∃ l, c.kernel.sched.waiters i.object = t :: l :=
    List.head?_eq_some_iff.mp hact.head?_wakes
  have hzero : c.kernel.word i = 0 := hc.empty (by simp [hwaiters])
  refine ⟨?_, fun _ => ?_, ?_, fun u hu => ?_⟩
  · change k'.word i ≤ k'.limit i
    rw [hword, limit_congr hs.maxCount]
    exact hc.le
  · change k'.word i = 0
    rw [hword, hzero]
  · -- the first waiter is the one that is woken
    have hone := hact.filter_woken h.kernel.sched
    have hbal := hc.balance
    simp only [after, hword, hone, Event.isGive, Event.isTake, Reply.isDone, decide_true,
      Bool.and_true, Bool.false_eq_true, if_false, if_true, List.length_singleton]
    omega
  · have hold := ((hmem u).mp hu).1
    change k'.sched.deadlineAt u = c.captured u
    rw [hact.deadlineAt_eq h.kernel.sched hold hu]
    exact hc.captured u hold

/-- A give that stores its token. -/
lemma Conserved.stored (h : c.Inv) (hnil : c.kernel.sched.waiters i.object = [])
    (hlt : c.kernel.word i < c.kernel.limit i) :
    (c.after (.give i) (c.kernel.setWord i (c.kernel.word i + 1)) .done).Conserved i := by
  have hc := h.conserved i
  have hword : (c.kernel.setWord i (c.kernel.word i + 1)).word i = c.kernel.word i + 1 :=
    Function.update_self ..
  have hbal := hc.balance
  have hwoken := woken_self h i
  refine ⟨?_, fun hne => absurd hnil hne, ?_, fun t ht => hc.captured t ht⟩
  · change (c.kernel.setWord i (c.kernel.word i + 1)).word i ≤ c.kernel.limit i
    rw [hword]
    omega
  · simp only [after, Event.isGive, Event.isTake, Reply.isDone, decide_true, Bool.and_true,
      Bool.false_eq_true, if_false, if_true, Kernel.setWord, Function.update_self]
    omega

/-- An operation that fails changes nothing. -/
lemma Conserved.failed (h : c.Inv) (ev : Event α) (status : Status) :
    (c.after ev c.kernel (.err status)).Conserved i := by
  have hc := h.conserved i
  have hcapture : ∀ t, c.capture ev (.err status) t = c.captured t := by
    intro t
    unfold capture
    split
    · rename_i heq
      cases heq
    · rfl
  have hbal := hc.balance
  have hwoken := woken_self h i
  refine ⟨hc.le, hc.empty, ?_, fun t ht => ?_⟩
  · simp only [after, Reply.isDone, Bool.and_false, Bool.false_eq_true, if_false]
    omega
  · change c.kernel.sched.deadlineAt t = c.capture ev (.err status) t
    rw [hcapture]
    exact hc.captured t ht

/-- **Every step keeps the balance of every semaphore.** -/
theorem Inv.step (h : c.Inv) (hs : Step c c') : c'.Inv := by
  obtain ⟨ev, k', reply, hen, hrun, rfl⟩ := hs
  refine ⟨(h.kernel.does hen hrun).inv h.kernel, fun i => ?_⟩
  by_cases hi : ev.semaphore = some i
  · cases (Kernel.exec_semaphore h.kernel.sched hen hi).value hrun with
    | taken hev hpos => exact .taken h hev hpos
    | parked hzero hs hact => exact .parked h hen hzero hs hact
    | refused hev _ => exact .failed h _ _
    | handed hs hact => exact .handed h hs hact
    | stored hnil hlt => exact .stored h hnil hlt
    | full _ _ => exact .failed h _ _
  · exact .of_ne h hen hrun hi

lemma Initial.inv (h : c.Initial) : c.Inv := by
  obtain ⟨layout, periodTicks, execTicks, hboot⟩ := h.kernel.boot
  obtain ⟨-, -, -, -, -, hwaiters, -⟩ := Sched.boot_base hboot
  have hnil : ∀ o, c.kernel.sched.waiters o = [] := fun o => congrFun hwaiters o
  refine ⟨h.kernel.inv, fun i => ⟨h.kernel.word_le i, fun hne => absurd (hnil _) hne, ?_,
    fun t ht => ?_⟩⟩
  · rw [h.initial, h.gives, h.taken, h.woken]
  · rw [hnil] at ht
    cases ht

lemma reachable_inv (h : c.Reachable) : c.Inv :=
  Runs.Reach.invariant (fun _ hi => hi.inv) (fun _ _ hc hs => hc.step hs) h

/-! ### Handing a token over -/

/-- The waiter with the least captured deadline. -/
abbrev First (c : Tokens α) (o : WaitObject) (t : Tid) : Prop :=
  c.kernel.sched.FirstWaiter c.captured o t

lemma first_of_wakes (h : c.Inv) {t : Tid} {s' : Sched}
    (hact : Sched.Act (.wakes t i.object) c.kernel.sched s') : c.First i.object t :=
  hact.firstWaiter h.kernel.sched (h.conserved i).captured

/-- What a give does. -/
lemma give_spec (h : c.Inv) (hrun : c.kernel.exec (.give i) = .ok (k', reply)) :
    (reply = .err .full ↔
      c.kernel.word i = c.kernel.limit i ∧ c.kernel.sched.waiters i.object = []) ∧
    (c.kernel.sched.waiters i.object ≠ [] → reply = .done ∧ ∃ t, c.First i.object t ∧
      Sched.WakesOne i.object t c.kernel.sched k'.sched) := by
  have hle := (h.conserved i).le
  have hen : c.kernel.Enabled (.give i) := trivial
  have hstep := (Kernel.exec_semaphore h.kernel.sched hen rfl).value hrun
  generalize hev : Event.give i = ev at hstep
  cases hstep with
  | taken hev' _ => rcases hev' with rfl | ⟨port, rfl⟩ <;> cases hev
  | parked _ _ _ => cases hev
  | refused hev' _ => rcases hev' with rfl | ⟨port, rfl⟩ <;> cases hev
  | @handed t _ _ hact =>
      refine ⟨iff_of_false (by simp) fun hfull => ?_,
        fun _ => ⟨rfl, t, first_of_wakes h hact, hact.wakesOne h.kernel.sched⟩⟩
      have hhead := hact.head?_wakes
      rw [hfull.2] at hhead
      cases hhead
  | stored hnil hlt =>
      exact ⟨iff_of_false (by simp) fun hfull => by omega, fun hne => absurd hnil hne⟩
  | full hnil hge => exact ⟨iff_of_true rfl ⟨by omega, hnil⟩, fun hne => absurd hnil hne⟩

/-- A waiter stays parked until a give wakes it. -/
lemma waiter_spec (h : c.Inv) (hen : c.kernel.Enabled ev)
    (hrun : c.kernel.exec ev = .ok (k', reply)) {t : Tid}
    (ht : t ∈ c.kernel.sched.waiters i.object) :
    (t ∈ k'.sched.waiters i.object ∧ k'.sched.state t = .suspended) ∨
      (ev = .give i ∧ reply = .done ∧ c.First i.object t ∧ k'.sched.state t = .ready) := by
  have hinv' := (h.kernel.does hen hrun).inv h.kernel
  have hstays : t ∈ k'.sched.waiters i.object →
      t ∈ k'.sched.waiters i.object ∧ k'.sched.state t = .suspended :=
    fun ht' => ⟨ht', ((hinv'.sched.ok t).waits i.object ht').1⟩
  by_cases hi : ev.semaphore = some i
  · cases (Kernel.exec_semaphore h.kernel.sched hen hi).value hrun with
    | taken _ _ => exact Or.inl (hstays ht)
    | parked _ _ hact =>
        exact Or.inl (hstays ((hact.mem_waiters h.kernel.sched t i.object).mpr (Or.inl ht)))
    | refused _ _ => exact Or.inl (hstays ht)
    | @handed u _ _ hact =>
        by_cases htu : t = u
        · subst htu
          exact Or.inr ⟨rfl, rfl, first_of_wakes h hact, by rw [hact.state_wakes, if_pos rfl]⟩
        · exact Or.inl (hstays ((hact.mem_waiters h.kernel.sched t i.object).mpr ⟨ht, htu⟩))
    | stored _ _ => exact Or.inl (hstays ht)
    | full _ _ => exact Or.inl (hstays ht)
  · exact Or.inl (hstays ((waiters_of_ne h hen hrun hi t).1.mpr ht))

/-- A take that blocks registers its thread. -/
lemma take_spec (h : c.Inv) {port : TimerPort} (hen : c.kernel.Enabled (.take i port))
    (hrun : c.kernel.exec (.take i port) = .ok (k', .blocked)) :
    ∃ t, c.kernel.sched.current = some t ∧ t ∈ k'.sched.waiters i.object ∧
      k'.sched.state t = .suspended := by
  have hinv' := (h.kernel.does hen hrun).inv h.kernel
  have hstep := (Kernel.exec_semaphore h.kernel.sched hen rfl).value hrun
  generalize hev : Event.take i port = ev at hstep
  cases hstep with
  | @parked _ t _ _ _ hact =>
      have ht : t ∈ k'.sched.waiters i.object :=
        (hact.mem_waiters h.kernel.sched t i.object).mpr (Or.inr ⟨rfl, rfl⟩)
      exact ⟨t, hact.acting.current, ht, ((hinv'.sched.ok t).waits i.object ht).1⟩

/-- **Token conservation.**  In every run the word of a semaphore stays within its limit and is 0
while a thread is registered, and the tokens add up.  A give is refused exactly when the semaphore
is full and has no waiter; with waiters it wakes the first of them and no other thread.  A take that
blocks registers its thread, which stays suspended until such a give. -/
theorem reachable_tokens (h : c.Reachable) (i : SemaphoreId) :
    c.Conserved i ∧
    (∀ k' reply, c.kernel.exec (.give i) = .ok (k', reply) →
      (reply = .err .full ↔
        c.kernel.word i = c.kernel.limit i ∧ c.kernel.sched.waiters i.object = []) ∧
      (c.kernel.sched.waiters i.object ≠ [] → reply = .done ∧ ∃ t, c.First i.object t ∧
        Sched.WakesOne i.object t c.kernel.sched k'.sched)) ∧
    (∀ port k', c.kernel.Enabled (.take i port) →
      c.kernel.exec (.take i port) = .ok (k', .blocked) → ∃ t, c.kernel.sched.current = some t ∧
        t ∈ k'.sched.waiters i.object ∧ k'.sched.state t = .suspended) ∧
    (∀ ev k' reply, c.kernel.Enabled ev → c.kernel.exec ev = .ok (k', reply) →
      ∀ t ∈ c.kernel.sched.waiters i.object,
        (t ∈ k'.sched.waiters i.object ∧ k'.sched.state t = .suspended) ∨
          (ev = .give i ∧ reply = .done ∧ c.First i.object t ∧ k'.sched.state t = .ready)) := by
  have hinv := reachable_inv h
  exact ⟨hinv.conserved i, fun _ _ hrun => give_spec hinv hrun,
    fun _ _ hen hrun => take_spec hinv hen hrun,
    fun _ _ _ hen hrun _ ht => waiter_spec hinv hen hrun ht⟩

/-! ### A hand-over -/

/-- The state after a step. -/
def next (c : Tokens α) (ev : Event α) : Option (Tokens α) :=
  if c.kernel.Enabled ev then
    match c.kernel.exec ev with
    | .ok (k', reply) => some (c.after ev k' reply)
    | .error _ => none
  else none

lemma next_step (h : c.next ev = some c') : Step c c' := by
  unfold next at h
  split at h
  · rename_i hen
    cases hrun : c.kernel.exec ev with
    | error f =>
        rw [hrun] at h
        cases h
    | ok r =>
        rw [hrun] at h
        exact ⟨ev, r.1, r.2, hen, hrun, (Option.some.inj h).symm⟩
  · cases h

/-- The run of given steps from boot. -/
def trial (evs : List (Event ℕ)) : Option (Tokens ℕ) := do
  let k ← Kernel.trial Kernel.next []
  evs.foldlM next ⟨k, k.word, fun _ => 0, fun _ => 0, fun _ => 0, fun _ => 0⟩

lemma trial_reachable {evs : List (Event ℕ)} {c : Tokens ℕ} (h : trial evs = some c) :
    c.Reachable := by
  simp only [trial, Kernel.trial, List.foldlM_nil, Option.bind_eq_bind,
    Option.bind_eq_some_iff] at h
  obtain ⟨k, ⟨k₀, hboot, hk⟩, hrun⟩ := h
  obtain rfl := Option.some.inj hk
  have hstart : Reachable ⟨k₀, k₀.word, fun _ => 0, fun _ => 0, fun _ => 0, fun _ => 0⟩ :=
    .start ⟨Kernel.booted_initial hboot, rfl, fun _ => rfl, fun _ => rfl, fun _ => rfl⟩
  exact hstart.foldlM (fun c ev c' (hn : c.next ev = some c') => next_step hn) hrun

/-- An RT thread blocks in a take, the semaphore is given and the thread runs again. -/
def handOver : List (Event ℕ) :=
  [.spawnRt 2 ⟨900, 800, 100⟩, .start 0, .tick ⟨some 499, some 0⟩ 8, .schedule ⟨some 499, some 0⟩,
    .take (.binary 0) ⟨some 299, some 259⟩, .schedule ⟨some 299, some 259⟩, .give (.binary 0)]

theorem reachable_tokens_handOver : ∃ c, trial handOver = some c ∧ c.Conserved (.binary 0) ∧
    c.gives (.binary 0) = 1 ∧ c.woken (.binary 0) = 1 ∧ c.kernel.word (.binary 0) = 0 := by
  have htest : (trial handOver).any (fun c => c.gives (.binary 0) == 1 &&
      c.woken (.binary 0) == 1 && c.kernel.word (.binary 0) == 0) = true := by decide +kernel
  obtain ⟨c, hc, htest⟩ := (Option.any_eq_true ..).mp htest
  simp only [Bool.and_eq_true, beq_iff_eq] at htest
  exact ⟨c, hc, (reachable_tokens (trial_reachable hc) (.binary 0)).1, htest.1.1, htest.1.2,
    htest.2⟩

end Tokens

end Rtsched

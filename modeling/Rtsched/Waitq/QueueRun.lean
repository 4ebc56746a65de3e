import Rtsched.Lib.Runs
import Rtsched.Waitq.Queue

/-!
Whole runs of the wait queue from its initial state: threads that are not blocked are inserted with
any wake-up time and event, blocked ones are removed, expired ones popped, in any order; a removed
thread becomes ready, and the threads that are not blocked run and have their entities rewritten.

A `WaitConfig` has beside the memory the record of the threads that were inserted and not removed
since, with their entities at that time and in the order of their insertion.

* `WaitConfig.exec_spec`: every operation within its contract returns and keeps the invariant.
* `WaitConfig.reachable_indexed`: in every reachable configuration the record tells what is in the
  timeout tree and in the suspended list, what `pop_expired_wait_thread` returns, and what
  `traverse_wait_queue_fn` visits.
-/

namespace Rtsched

open RedBlack Ordered Chained Runs

/-- The wait queue and the threads registered in it. -/
structure WaitConfig where
  mem : WaitMem
  registered : List (Addr × WaitEntity)

/-- The operations of the wait queue, and what happens to a thread outside it. -/
inductive WaitOp
  | insert (a : Addr)
  | remove (a : Addr)
  | popExpired (nowTicks : ℕ)
  | assign (a : Addr) (e : WaitEntity)
  | run (a : Addr) (x : ThreadState)

/-- The contract of an operation. -/
def WaitOp.Allowed (c : WaitConfig) : WaitOp → Prop
  | insert a => c.mem.kind a ≠ .idle ∧ (c.mem.state a).isBlocked = false
  | remove a => (c.mem.state a).isBlocked
  | popExpired _ => True
  | assign a _ => (c.mem.state a).isBlocked = false
  | run a x => (c.mem.state a).isBlocked = false ∧ x.isBlocked = false

/-- The threads registered for a wait that ends. -/
def untilOf (r : List (Addr × WaitEntity)) : List Addr :=
  (r.filter fun x => x.2.wakeAt ≠ u64Max).map Prod.fst

/-- The threads registered for a wait without end, in the order of their registration. -/
def foreverOf (r : List (Addr × WaitEntity)) : List Addr :=
  (r.filter fun x => x.2.wakeAt = u64Max).map Prod.fst

/-- The record without a thread. -/
def unregister (a : Addr) (r : List (Addr × WaitEntity)) : List (Addr × WaitEntity) :=
  r.filter fun x => x.1 ≠ a

namespace WaitConfig

/-- One operation. -/
def exec (c : WaitConfig) : WaitOp → Option WaitConfig
  | .insert a => do
      let q ← c.mem.insertWaitThread a
      some ⟨q, c.registered ++ [(a, c.mem.entity a)]⟩
  | .remove a => do
      let q ← c.mem.removeWaitThread a
      let q ← q.setState a .ready
      some ⟨q, unregister a c.registered⟩
  | .popExpired nowTicks => do
      let (q, popped) ← c.mem.popExpiredWaitThread nowTicks
      match popped with
      | none => some ⟨q, c.registered⟩
      | some a =>
          let q ← q.setState a .ready
          some ⟨q, unregister a c.registered⟩
  | .assign a e => some { c with mem := c.mem.setEntity a e }
  | .run a x => do
      let q ← c.mem.setState a x
      some { c with mem := q }

/-- The wait queue after boot: nothing is linked and no thread is blocked. -/
structure Start (c : WaitConfig) : Prop where
  tree : c.mem.tree = RBTree.new
  suspended : c.mem.suspended = SuspendedWaitList.new
  links : ∀ a, c.mem.suspendedPrev a = none ∧ c.mem.suspendedNext a = none
  state : ∀ a, (c.mem.state a).isBlocked = false
  registered : c.registered = []

/-- An operation within its contract. -/
def Step (c c' : WaitConfig) : Prop := ∃ op : WaitOp, op.Allowed c ∧ c.exec op = some c'

/-- The tree and the list hold what is registered, each thread once and with its entity. -/
structure Holds (c : WaitConfig) (l : List Addr) : Prop where
  index : c.mem.Index l (foreverOf c.registered)
  mem : ∀ a, a ∈ l ↔ a ∈ untilOf c.registered
  entity : ∀ x ∈ c.registered, c.mem.entity x.1 = x.2
  nodup : (c.registered.map Prod.fst).Nodup

def Inv (c : WaitConfig) : Prop := ∃ l, c.Holds l

end WaitConfig

/-! ### The record -/

section Record

variable {r : List (Addr × WaitEntity)} {a b : Addr} {e : WaitEntity}

lemma mem_untilOf : a ∈ untilOf r ↔ ∃ e, (a, e) ∈ r ∧ e.wakeAt ≠ u64Max := by
  simp [untilOf]

lemma mem_foreverOf : a ∈ foreverOf r ↔ ∃ e, (a, e) ∈ r ∧ e.wakeAt = u64Max := by
  simp [foreverOf]

/-- Registration goes with one of the two waits. -/
lemma mem_registered : a ∈ r.map Prod.fst ↔ a ∈ untilOf r ∨ a ∈ foreverOf r := by
  rw [mem_untilOf, mem_foreverOf, List.mem_map]
  constructor
  · rintro ⟨⟨b, e⟩, hbe, rfl⟩
    by_cases hw : e.wakeAt = u64Max
    · exact Or.inr ⟨e, hbe, hw⟩
    · exact Or.inl ⟨e, hbe, hw⟩
  · rintro (⟨e, hae, -⟩ | ⟨e, hae, -⟩)
    · exact ⟨(a, e), hae, rfl⟩
    · exact ⟨(a, e), hae, rfl⟩

lemma foreverOf_append (r : List (Addr × WaitEntity)) (a : Addr) (e : WaitEntity) :
    foreverOf (r ++ [(a, e)]) = if e.wakeAt = u64Max then foreverOf r ++ [a] else foreverOf r := by
  rw [foreverOf, List.filter_append, List.map_append]
  by_cases hw : e.wakeAt = u64Max
  · simp [hw, foreverOf]
  · simp [hw, foreverOf]

lemma mem_untilOf_append : b ∈ untilOf (r ++ [(a, e)]) ↔
    b ∈ untilOf r ∨ (b = a ∧ e.wakeAt ≠ u64Max) := by
  simp only [mem_untilOf, List.mem_append, List.mem_singleton, Prod.mk.injEq]
  constructor
  · rintro ⟨e', hb | ⟨rfl, rfl⟩, hw⟩
    · exact Or.inl ⟨e', hb, hw⟩
    · exact Or.inr ⟨rfl, hw⟩
  · rintro (⟨e', hb, hw⟩ | ⟨rfl, hw⟩)
    · exact ⟨e', Or.inl hb, hw⟩
    · exact ⟨e, Or.inr ⟨rfl, rfl⟩, hw⟩

lemma nodup_foreverOf (h : (r.map Prod.fst).Nodup) : (foreverOf r).Nodup :=
  h.sublist (List.filter_sublist.map _)

lemma foreverOf_unregister (h : (r.map Prod.fst).Nodup) (a : Addr) :
    foreverOf (unregister a r) = (foreverOf r).erase a := by
  rw [(nodup_foreverOf h).erase_eq_filter, foreverOf, foreverOf, unregister, List.filter_comm,
    List.filter_map]
  congr 2
  funext x
  by_cases hx : x.1 = a
  · simp [hx]
  · simp [hx]

lemma mem_untilOf_unregister : b ∈ untilOf (unregister a r) ↔ b ∈ untilOf r ∧ b ≠ a := by
  simp only [mem_untilOf, unregister, List.mem_filter, ne_eq, decide_eq_true_eq]
  tauto

lemma nodup_unregister (h : (r.map Prod.fst).Nodup) (a : Addr) :
    ((unregister a r).map Prod.fst).Nodup := h.sublist (List.filter_sublist.map _)

end Record

namespace WaitConfig

variable {c : WaitConfig} {l : List Addr} {a : Addr}

lemma inv_of_start (h : c.Start) : c.Inv := by
  have htree : c.mem.treeMem.toRBTree = RBTree.new := h.tree
  have hstate : ∀ a x, x.isBlocked = true → c.mem.state a ≠ x := by
    rintro a x hx rfl
    rw [h.state a] at hx
    cases hx
  refine ⟨[], ⟨⟨⟨.nil, ⟨?_, trivial, List.nodup_nil⟩, ⟨rfl, trivial, 0, ?_⟩, rfl⟩, ?_, .nil⟩, ?_,
    fun a _ => h.links a, fun a => ?_, fun a => ?_, fun a ha => ?_⟩, ?_, ?_, ?_⟩
  · rw [htree]; rfl
  · exact Shape.blackHeight_nil.mpr rfl
  · rw [htree]; rfl
  · rw [h.suspended, h.registered]
    exact Listed.nil
  · simp [hstate a .waiting rfl]
  · simp [h.registered, foreverOf, hstate a .suspended rfl]
  · rw [h.state a] at ha
    cases ha
  · simp [h.registered, untilOf]
  · simp [h.registered]
  · simp [h.registered]

/-- The registered threads are the blocked ones. -/
lemma Holds.blocked (h : c.Holds l) (a : Addr) :
    a ∈ c.registered.map Prod.fst ↔ (c.mem.state a).isBlocked := by
  rw [mem_registered, ← h.mem, ← List.mem_append, h.index.mem_iff]

/-- A thread that has left the queue leaves the record. -/
lemma Holds.leave (h : c.Holds l) {q : WaitMem}
    (hindex : q.Index (l.erase a) ((foreverOf c.registered).erase a))
    (hmoved : WaitMem.Moved a .ready c.mem q) :
    Holds ⟨q, unregister a c.registered⟩ (l.erase a) := by
  refine ⟨?_, fun b => ?_, fun x hx => ?_, nodup_unregister h.nodup a⟩
  · rw [foreverOf_unregister h.nodup]
    exact hindex
  · have hnodup : l.Nodup := Increasing.nodup h.index.tree.sorted
    rw [hnodup.mem_erase_iff, h.mem, mem_untilOf_unregister, and_comm]
  · rw [hmoved.entity]
    exact h.entity x (List.mem_of_mem_filter hx)

/-- A thread that is not blocked enters the queue and the record. -/
lemma Holds.enter (h : c.Holds l) (hkind : c.mem.kind a ≠ .idle)
    (hstate : (c.mem.state a).isBlocked = false) :
    ∃ q l', c.mem.insertWaitThread a = some q ∧
      Holds ⟨q, c.registered ++ [(a, c.mem.entity a)]⟩ l' := by
  have hnew : a ∉ c.registered.map Prod.fst := by
    rw [h.blocked, hstate]
    decide
  have hnodup : ((c.registered ++ [(a, c.mem.entity a)]).map Prod.fst).Nodup := by
    rw [List.map_append]
    refine List.nodup_append.mpr ⟨h.nodup, List.nodup_singleton _, fun b hb d hd hbd => ?_⟩
    obtain rfl : d = a := List.mem_singleton.mp hd
    exact hnew (hbd ▸ hb)
  have hentity : ∀ x ∈ c.registered ++ [(a, c.mem.entity a)], c.mem.entity x.1 = x.2 := by
    intro x hx
    rcases List.mem_append.mp hx with hx | hx
    · exact h.entity x hx
    · rw [List.mem_singleton.mp hx]
  by_cases hwake : (c.mem.entity a).wakeAt = u64Max
  · obtain ⟨q, hrun, hindex, hmoved⟩ :=
      WaitMem.insertWaitThread_forever h.index hkind hstate hwake
    refine ⟨q, l, hrun, ⟨?_, fun b => ?_, fun x hx => ?_, hnodup⟩⟩
    · rw [foreverOf_append, if_pos hwake]
      exact hindex
    · rw [mem_untilOf_append, h.mem]
      tauto
    · rw [hmoved.entity]
      exact hentity x hx
  · obtain ⟨q, hrun, hindex, hmoved⟩ := WaitMem.insertWaitThread_until h.index hkind hstate hwake
    refine ⟨q, ordInsert c.mem.cmp a l, hrun, ⟨?_, fun b => ?_, fun x hx => ?_, hnodup⟩⟩
    · rw [foreverOf_append, if_neg hwake]
      exact hindex
    · rw [mem_ordInsert, mem_untilOf_append, h.mem]
      tauto
    · rw [hmoved.entity]
      exact hentity x hx

/-- The entity of a thread that is not blocked may be rewritten. -/
lemma Holds.assign (h : c.Holds l) (hstate : (c.mem.state a).isBlocked = false) (e : WaitEntity) :
    Holds { c with mem := c.mem.setEntity a e } l := by
  obtain ⟨hal, -⟩ := h.index.notMem_of_unblocked hstate
  have hent : ∀ b, b ≠ a → (c.mem.setEntity a e).entity b = c.mem.entity b := fun b hba =>
    Function.update_of_ne hba ..
  have hne : ∀ b ∈ l, b ≠ a := by
    rintro b hb rfl
    exact hal hb
  have hreg : ∀ x ∈ c.registered, x.1 ≠ a := by
    rintro x hx rfl
    have hblocked := (h.blocked x.1).mp (List.mem_map_of_mem hx)
    rw [hstate] at hblocked
    cases hblocked
  refine ⟨⟨?_, h.index.list, h.index.detached, h.index.waiting, h.index.suspended, h.index.kind⟩,
    h.mem, fun x hx => ?_, h.nodup⟩
  · refine h.index.tree.congr rfl (fun _ _ => rfl) fun b hb d hd => ?_
    simp only [WaitMem.cmp, keyCmp, compareLex, compareOn, hent b (hne b hb), hent d (hne d hd)]
  · exact (hent x.1 (hreg x hx)).trans (h.entity x hx)

/-- A thread that is not blocked may run and be preempted. -/
lemma Holds.run (h : c.Holds l) {x : ThreadState} (hstate : (c.mem.state a).isBlocked = false)
    (hx : x.isBlocked = false) :
    Holds { c with mem := { c.mem with state := Function.update c.mem.state a x } } l := by
  have hblocked : ∀ b, (Function.update c.mem.state a x b).isBlocked = (c.mem.state b).isBlocked ∧
      ∀ y : ThreadState, y.isBlocked = true →
        (c.mem.state b = y ↔ Function.update c.mem.state a x b = y) := by
    intro b
    by_cases hba : b = a
    · subst hba
      rw [Function.update_self]
      refine ⟨hx.trans hstate.symm, fun y hy => ⟨?_, ?_⟩⟩
      · rintro rfl
        rw [hstate] at hy
        cases hy
      · rintro rfl
        rw [hx] at hy
        cases hy
    · rw [Function.update_of_ne hba]
      exact ⟨rfl, fun y _ => Iff.rfl⟩
  refine ⟨⟨h.index.tree, h.index.list, h.index.detached, fun b => ?_, fun b => ?_, fun b hb => ?_⟩,
    h.mem, h.entity, h.nodup⟩
  · rw [h.index.waiting]
    exact (hblocked b).2 .waiting rfl
  · rw [h.index.suspended]
    exact (hblocked b).2 .suspended rfl
  · rw [(hblocked b).1] at hb
    exact h.index.kind b hb

/-- Every operation within its contract returns and keeps the invariant. -/
lemma exec_spec (h : c.Inv) {op : WaitOp} (hop : op.Allowed c) :
    ∃ c', c.exec op = some c' ∧ c'.Inv := by
  obtain ⟨l, h⟩ := h
  cases op with
  | insert a =>
      obtain ⟨q, l', hrun, h'⟩ := h.enter hop.1 hop.2
      exact ⟨_, by simp [exec, hrun], l', h'⟩
  | remove a =>
      obtain ⟨q₁, q₂, hrun, hset, hindex, hmoved⟩ := WaitMem.removeWaitThread_spec h.index hop
      exact ⟨_, by simp [exec, hrun, hset], _, h.leave hindex hmoved⟩
  | popExpired nowTicks =>
      obtain ⟨hsome, hnone⟩ := WaitMem.popExpiredWaitThread_spec h.index nowTicks
      by_cases hexp : ∃ a, l.head? = some a ∧ (c.mem.entity a).wakeAt ≤ nowTicks
      · obtain ⟨a, hhead, hexp⟩ := hexp
        obtain ⟨q₁, q₂, hrun, hset, hindex, hmoved⟩ := hsome a hhead hexp
        exact ⟨_, by simp [exec, hrun, hset], _, h.leave hindex hmoved⟩
      · have hrun := hnone fun a hhead hle => hexp ⟨a, hhead, hle⟩
        exact ⟨c, by simp [exec, hrun], l, h⟩
  | assign a e => exact ⟨_, rfl, l, h.assign hop e⟩
  | run a x =>
      have hset := WaitMem.setState_eq (q := c.mem) (a := a) (x := x)
        (WaitMem.canTransitionTo_of_unblocked hop.1)
      exact ⟨_, by simp [exec, hset], l, h.run hop.1 hop.2⟩

lemma inv_of_reach (h : Reach Start Step c) : c.Inv := by
  refine h.invariant (fun _ => inv_of_start) fun c c' hc hstep => ?_
  obtain ⟨op, hop, hrun⟩ := hstep
  obtain ⟨c'', hrun', hinv⟩ := exec_spec hc hop
  obtain rfl : c' = c'' := Option.some.inj (hrun.symm.trans hrun')
  exact hinv

/-- The two sequences are no longer than the record. -/
lemma Holds.length_le (h : c.Holds l) :
    (l ++ foreverOf c.registered).length ≤ c.registered.length := by
  have hsub : l ++ foreverOf c.registered ⊆ c.registered.map Prod.fst := by
    intro a ha
    rw [mem_registered, ← h.mem]
    exact List.mem_append.mp ha
  have hle := (List.subperm_of_subset h.index.nodup hsub).length_le
  rwa [List.length_map] at hle

/-- What `pop_expired_wait_thread` returns. -/
lemma Holds.popExpired (h : c.Holds l) (nowTicks : ℕ) :
    ∃ q r, c.mem.popExpiredWaitThread nowTicks = some (q, r) ∧
      (r ≠ none ↔ ∃ a ∈ untilOf c.registered, (c.mem.entity a).wakeAt ≤ nowTicks) ∧
      ∀ a, r = some a → a ∈ untilOf c.registered ∧ (c.mem.entity a).wakeAt ≤ nowTicks ∧
        ∀ b ∈ untilOf c.registered, b = a ∨ c.mem.cmp a b = .lt := by
  have hsorted := h.index.tree.sorted
  obtain ⟨hsome, hnone⟩ := WaitMem.popExpiredWaitThread_spec h.index nowTicks
  by_cases hexp : ∃ a, l.head? = some a ∧ (c.mem.entity a).wakeAt ≤ nowTicks
  · obtain ⟨a, hhead, hexp⟩ := hexp
    obtain ⟨q₁, q₂, hrun, -⟩ := hsome a hhead hexp
    obtain ⟨hal, hleast⟩ := hsorted.head?_eq_some_iff.mp hhead
    refine ⟨q₁, some a, hrun, ⟨fun _ => ⟨a, (h.mem a).mp hal, hexp⟩, fun _ => by simp⟩, ?_⟩
    intro b hb
    obtain rfl := Option.some.inj hb
    exact ⟨(h.mem a).mp hal, hexp, fun b hb => hleast b ((h.mem b).mpr hb)⟩
  · refine ⟨c.mem, none, hnone fun a hhead hle => hexp ⟨a, hhead, hle⟩, ⟨fun hr => ?_, ?_⟩, ?_⟩
    · exact absurd rfl hr
    · rintro ⟨b, hb, hle⟩
      rw [← h.mem] at hb
      -- the first thread of the tree is no later
      cases hhead : l.head? with
      | none =>
          rw [List.head?_eq_none_iff.mp hhead] at hb
          cases hb
      | some a =>
          refine absurd ⟨a, hhead, ?_⟩ hexp
          by_cases hba : b = a
          · exact hba ▸ hle
          · exact (WaitMem.wakeAt_le_of_lt (hsorted.head_lt hhead hb hba)).trans hle
    · intro a ha
      cases ha

/-- **The index of the blocked threads.**  In every reachable configuration a thread is in the
timeout tree iff it was inserted with a wake-up time other than `u64::MAX` and not removed since;
the pointers of the suspended list describe the list without repetition of the threads that were
inserted with `u64::MAX` and not removed since, in the order of their insertion, and the others have
no list links.  `pop_expired_wait_thread` returns a thread iff some wake-up time in the tree has
come, and then the least by wake-up time, event and address.  The traversal ends after as many turns
as there are registered threads and visits every blocked thread once: those of the tree in that
order, then the list.  Every operation within its contract returns. -/
theorem reachable_indexed (c : WaitConfig) (h : Reach Start Step c) :
    (∀ a, c.mem.treeMem.contains a = some true ↔
      ∃ e, (a, e) ∈ c.registered ∧ e.wakeAt ≠ u64Max)
    ∧ (∀ x ∈ c.registered, c.mem.entity x.1 = x.2)
    ∧ (∀ a, a ∈ foreverOf c.registered ↔ ∃ e, (a, e) ∈ c.registered ∧ e.wakeAt = u64Max)
    ∧ Listed c.mem.suspended.head c.mem.suspended.tail c.mem.suspendedPrev c.mem.suspendedNext
        (foreverOf c.registered)
    ∧ (∀ a ∉ foreverOf c.registered,
        c.mem.suspendedPrev a = none ∧ c.mem.suspendedNext a = none)
    ∧ (∀ nowTicks, ∃ q r, c.mem.popExpiredWaitThread nowTicks = some (q, r)
      ∧ (r ≠ none ↔ ∃ a ∈ untilOf c.registered, (c.mem.entity a).wakeAt ≤ nowTicks)
      ∧ ∀ a, r = some a → a ∈ untilOf c.registered ∧ (c.mem.entity a).wakeAt ≤ nowTicks
        ∧ ∀ b ∈ untilOf c.registered, b = a ∨ c.mem.cmp a b = .lt)
    ∧ (∃ l : List Addr, l.Pairwise (fun x y => c.mem.cmp x y = .lt)
      ∧ (∀ a, a ∈ l ↔ a ∈ untilOf c.registered)
      ∧ (l ++ foreverOf c.registered).Nodup
      ∧ (∀ a, a ∈ l ++ foreverOf c.registered ↔ (c.mem.state a).isBlocked)
      ∧ ∀ fuel, c.registered.length ≤ fuel →
        c.mem.traverseWaitQueueFn fuel = some (l ++ foreverOf c.registered))
    ∧ ∀ op : WaitOp, op.Allowed c → ∃ c', c.exec op = some c' ∧ Step c c' := by
  have hinv := inv_of_reach h
  have hprogress : ∀ op : WaitOp, op.Allowed c → ∃ c', c.exec op = some c' ∧ Step c c' := by
    intro op hop
    obtain ⟨c', hrun, -⟩ := exec_spec hinv hop
    exact ⟨c', hrun, op, hop, hrun⟩
  obtain ⟨l, hl⟩ := hinv
  refine ⟨fun a => ?_, hl.entity, fun a => mem_foreverOf, hl.index.list, hl.index.detached,
    hl.popExpired, ⟨l, hl.index.tree.sorted, hl.mem, hl.index.nodup, hl.index.mem_iff,
    fun fuel hfuel => ?_⟩, hprogress⟩
  · rw [hl.index.tree.contains, Option.some.injEq, decide_eq_true_eq, hl.mem, mem_untilOf]
  · exact WaitMem.traverse_spec hl.index (hl.length_le.trans hfuel)

/-- The queue after boot, with CFS threads only. -/
def boot : WaitConfig where
  mem :=
    { tree := RBTree.new
      suspended := SuspendedWaitList.new
      heap := fun _ => RbNode.new
      entity := fun a => ⟨if a = 5 then u64Max else 10, none⟩
      suspendedPrev := fun _ => none
      suspendedNext := fun _ => none
      kind := fun _ => .cfs
      state := fun _ => .running }
  registered := []

/-- One thread suspended, then one waiting for the time 10. -/
theorem reachable_indexed_pair : ∃ c : WaitConfig, Reach Start Step c
    ∧ c.mem.traverseWaitQueueFn 2 = some [3, 5] ∧ c.mem.suspended.tail = some 5 := by
  have h₀ : Reach Start Step boot := .start ⟨rfl, rfl, fun _ => ⟨rfl, rfl⟩, fun _ => rfl, rfl⟩
  obtain ⟨c₁, hrun₁, hkind₁, hstate₁, hreg₁, hent₁⟩ : ∃ c₁, boot.exec (.insert 5) = some c₁ ∧
      c₁.mem.kind 3 ≠ .idle ∧ (c₁.mem.state 3).isBlocked = false ∧
      c₁.registered = [(5, ⟨u64Max, none⟩)] ∧ c₁.mem.entity 3 = ⟨10, none⟩ :=
    ⟨_, rfl, by decide, by decide, rfl, rfl⟩
  have h₁ := h₀.step ⟨.insert 5, ⟨by decide, by decide⟩, hrun₁⟩
  obtain ⟨c, hrun, hstep⟩ := (reachable_indexed c₁ h₁).2.2.2.2.2.2.2 (.insert 3) ⟨hkind₁, hstate₁⟩
  have hreg : c.registered = [(5, ⟨u64Max, none⟩), (3, ⟨10, none⟩)] := by
    simp only [exec, Option.bind_eq_bind, Option.bind_eq_some_iff, Option.some.injEq] at hrun
    obtain ⟨q, -, rfl⟩ := hrun
    rw [hreg₁, hent₁]
    rfl
  obtain ⟨-, -, -, hlist, -, -, ⟨l, -, hmem, hnodup, -, hvisit⟩, -⟩ :=
    reachable_indexed c (h₁.step hstep)
  have hforever : foreverOf c.registered = [5] := by rw [hreg]; decide
  have huntil : untilOf c.registered = [3] := by rw [hreg]; decide
  have hl : l = [3] := by
    have hmem3 : ∀ x, x ∈ l ↔ x = 3 := fun x => by rw [hmem, huntil, List.mem_singleton]
    have hnd : l.Nodup := (List.nodup_append.mp hnodup).1
    exact List.perm_singleton.mp ((List.perm_ext_iff_of_nodup hnd (by simp)).mpr (by simp [hmem3]))
  refine ⟨c, h₁.step hstep, ?_, ?_⟩
  · rw [hvisit 2 (by rw [hreg]; decide), hl, hforever]
    rfl
  · rw [hlist.tail, hforever]
    rfl

end WaitConfig

end Rtsched

import Rtsched.Kernel.KtimerSpec
import Rtsched.Ktimer.QueueSpec

/-!
The timer queue at the level of pointers stores the sequences of `KTimers`.

* `QueueMem.Represents q s`: the trees of `q` hold the addresses of the timers of `s`.
* `QueueMem.insert_refines`, `QueueMem.remove_refines`, `QueueMem.dequeue_refines`: the operations
  of `KTimers` are those of `KTimerQueue`; inserting a linked timer fails on both sides.
-/

namespace Rtsched

open Ordered Outcome

lemma KTimers.remove_layout {s s' : KTimers} {k : Timer} (h : s.remove k = .ok s') :
    s'.layout = s.layout := by
  rw [KTimers.remove] at h
  split at h
  · obtain ⟨l, -, h⟩ := bind_eq_ok.mp h
    obtain rfl := Except.ok.inj h
    rfl
  · obtain ⟨l, -, h⟩ := bind_eq_ok.mp h
    obtain rfl := Except.ok.inj h
    rfl

namespace QueueMem

variable {q q' : QueueMem} {s s' : KTimers} {k : Timer} {a : Addr} {b : Bool}

/-! ### The clock -/

section NowTicks

variable {r : TreeMem} {p : Ptr} {e : KTimerEntity}

@[simp] lemma setTree_nowTicks : (q.setTree b r).nowTicks = q.nowTicks := by cases b <;> rfl

@[simp] lemma setLeftMost_nowTicks : (q.setLeftMost b p).nowTicks = q.nowTicks := by
  cases b <;> rfl

@[simp] lemma setEntity_nowTicks : (q.setEntity a e).nowTicks = q.nowTicks := rfl

lemma insert_nowTicks (h : q.insert a b = some q') : q'.nowTicks = q.nowTicks := by
  simp only [insert, Option.bind_eq_bind, Option.bind_eq_some_iff] at h
  obtain ⟨linked, -, h⟩ := h
  cases linked with
  | true => cases h
  | false =>
      rw [if_neg Bool.false_ne_true, Option.bind_eq_some_iff] at h
      obtain ⟨r, -, h⟩ := h
      split at h
      · obtain rfl := Option.some.inj h
        simp
      · obtain rfl := Option.some.inj h
        split <;> simp

lemma remove_nowTicks {p' : Ptr} (h : q.remove p = some (q', p')) :
    q'.nowTicks = q.nowTicks := by
  cases p with
  | none =>
      obtain ⟨rfl, -⟩ := Prod.mk.inj (Option.some.inj h)
      rfl
  | some a =>
      simp only [remove, Option.bind_eq_bind] at h
      split at h
      · simp only [Option.bind_eq_some_iff] at h
        obtain ⟨next, -, ⟨r, removed⟩, -, h⟩ := h
        obtain ⟨rfl, -⟩ := Prod.mk.inj (Option.some.inj h)
        simp
      · simp only [Option.bind_eq_some_iff] at h
        obtain ⟨next, -, ⟨r, removed⟩, -, h⟩ := h
        obtain ⟨rfl, -⟩ := Prod.mk.inj (Option.some.inj h)
        simp

end NowTicks

/-! ### The representation -/

/-- The addresses of the active and of the inactive timers. -/
def timersOf (s : KTimers) (b : Bool) : List Addr :=
  (if b then s.active else s.inactive).map s.layout.addr

/-- The trees hold the timers of `s`, with their entities and the clock. -/
structure Represents (q : QueueMem) (s : KTimers) : Prop where
  wf : q.Wf (timersOf s)
  entity : ∀ k, q.entity (s.layout.addr k) = s.entity k
  nowTicks : q.nowTicks = s.nowTicks

lemma mem_timersOf : s.layout.addr k ∈ timersOf s b ↔ k ∈ if b then s.active else s.inactive :=
  List.mem_map_of_injective s.layout.injective

/-- The active timers have a new sequence. -/
lemma wf_timersOf_active
    (h : q.Wf (Function.update (timersOf s) true (s'.active.map s.layout.addr)))
    (hinactive : s'.inactive = s.inactive) (hlayout : s'.layout = s.layout) :
    q.Wf (timersOf s') := by
  have hlists : timersOf s' = Function.update (timersOf s) true (s'.active.map s.layout.addr) := by
    funext b
    cases b with
    | true => rw [Function.update_self, timersOf, if_pos rfl, hlayout]
    | false =>
        rw [Function.update_of_ne (by decide), timersOf, timersOf, if_neg (by decide),
          if_neg (by decide), hinactive, hlayout]
  rwa [hlists]

/-- The inactive timers have a new sequence. -/
lemma wf_timersOf_inactive
    (h : q.Wf (Function.update (timersOf s) false (s'.inactive.map s.layout.addr)))
    (hactive : s'.active = s.active) (hlayout : s'.layout = s.layout) :
    q.Wf (timersOf s') := by
  have hlists : timersOf s' =
      Function.update (timersOf s) false (s'.inactive.map s.layout.addr) := by
    funext b
    cases b with
    | true =>
        rw [Function.update_of_ne (by decide), timersOf, timersOf, if_pos rfl, if_pos rfl,
          hactive, hlayout]
    | false => rw [Function.update_self, timersOf, if_neg (by decide), hlayout]
  rwa [hlists]

lemma mem_timersOf_iff : (∃ b, s.layout.addr k ∈ timersOf s b) ↔ s.Linked k := by
  simp only [mem_timersOf, Bool.exists_bool, if_true, Bool.false_eq_true, if_false]
  exact or_comm

lemma notMem_timersOf (hk : ¬ s.Linked k) (b : Bool) : s.layout.addr k ∉ timersOf s b :=
  fun hmem => hk (mem_timersOf_iff.mp ⟨b, hmem⟩)

namespace Represents

lemma cmp (h : q.Represents s) (i j : Timer) :
    q.cmp (s.layout.addr i) (s.layout.addr j) = s.cmp i j := by
  simp only [QueueMem.cmp, KTimers.cmp, keyCmp, compareLex, compareOn, h.entity, id]

lemma contains (h : q.Represents s) (k : Timer) :
    q.contains (s.layout.addr k) = some (s.contains k) := by
  rw [h.wf.contains, KTimers.contains, ← Bool.decide_or]
  exact congrArg some (decide_eq_decide.mpr mem_timersOf_iff)

lemma firstActive (h : q.Represents s) : q.firstActive = s.firstActive.map s.layout.addr :=
  (h.wf.leftMost true).trans List.head?_map

/-- The first timer is the first one on both sides. -/
theorem first (h : q.Represents s) : q.first = s.first.map s.layout.addr := by
  have hinactive : q.firstInactive = s.inactive.head?.map s.layout.addr :=
    (h.wf.leftMost false).trans List.head?_map
  rw [QueueMem.first, h.firstActive, hinactive, KTimers.first, KTimers.firstActive]
  cases s.active.head? with
  | none => cases s.inactive.head? <;> rfl
  | some i =>
      cases s.inactive.head? with
      | none => rfl
      | some j =>
          simp only [Option.map_some, earlierOf, h.cmp]
          split <;> rfl

/-- The place of a timer in a sequence is the place of its address. -/
lemma map_ordInsert (h : q.Represents s) (k : Timer) (l : List Timer) :
    ordInsert q.cmp (s.layout.addr k) (l.map s.layout.addr) =
      (ordInsert s.cmp k l).map s.layout.addr := by
  symm
  refine List.map_orderedInsert _ _ _ l k (fun i _ => ?_) (fun i _ => ?_) <;> rw [h.cmp]

/-- The entity of a timer is assigned. -/
lemma update_entity (h : q.Represents s) (k j : Timer) (e : KTimerEntity) :
    Function.update q.entity (s.layout.addr k) e (s.layout.addr j) =
      Function.update s.entity k e j := by
  by_cases hjk : j = k
  · rw [hjk, Function.update_self, Function.update_self]
  · rw [Function.update_of_ne (s.layout.injective.ne hjk), Function.update_of_ne hjk, h.entity]

end Represents

/-! ### The operations -/

/-- Writing to a timer that is not linked. -/
theorem setEntity_refines (h : q.Represents s) (hk : ¬ s.Linked k) (e : KTimerEntity) :
    (q.setEntity (s.layout.addr k) e).Represents (s.setEntity k e) where
  wf := h.wf.setEntity (notMem_timersOf hk) e
  entity j := h.update_entity k j e
  nowTicks := h.nowTicks

/-- `insert` of a timer that is not linked. -/
theorem insert_refines (h : q.Represents s) (hk : ¬ s.Linked k) (b : Bool) :
    ∃ q' s', q.insert (s.layout.addr k) b = some q' ∧ s.insert k b = .ok s' ∧
      q'.Represents s' := by
  obtain ⟨q', hrun, hwf, hent⟩ := QueueMem.insert_spec h.wf (notMem_timersOf hk) b
  have hnow : q'.nowTicks = s.nowTicks := (insert_nowTicks hrun).trans h.nowTicks
  have hentity : ∀ j, q'.entity (s.layout.addr j) =
      Function.update s.entity k { s.entity k with active := b } j := by
    intro j
    rw [hent, h.entity, h.update_entity]
  cases b with
  | true =>
      have hka : k ∉ s.active := fun hmem => hk (Or.inl hmem)
      refine ⟨q', { s with active := ordInsert s.cmp k s.active }.setEntity k
        { s.entity k with active := true }, hrun, ?_, ⟨?_, hentity, hnow⟩⟩
      · rw [KTimers.insert, KTimers.contains_eq_false hk, if_neg Bool.false_ne_true, if_pos rfl,
          link_of_notMem hka, ok_bind]
      · rw [timersOf, if_pos rfl, h.map_ordInsert] at hwf
        exact wf_timersOf_active hwf rfl rfl
  | false =>
      have hki : k ∉ s.inactive := fun hmem => hk (Or.inr hmem)
      refine ⟨q', { s with inactive := ordInsert s.cmp k s.inactive }.setEntity k
        { s.entity k with active := false }, hrun, ?_, ⟨?_, hentity, hnow⟩⟩
      · rw [KTimers.insert, KTimers.contains_eq_false hk, if_neg Bool.false_ne_true,
          if_neg Bool.false_ne_true, link_of_notMem hki, ok_bind]
      · rw [timersOf, if_neg Bool.false_ne_true, h.map_ordInsert] at hwf
        exact wf_timersOf_inactive hwf rfl rfl

/-- `insert` of a linked timer fails on both sides. -/
theorem insert_fails (h : q.Represents s) (hk : s.Linked k) (b : Bool) :
    q.insert (s.layout.addr k) b = none ∧ s.insert k b = .error .alreadyLinked := by
  have hcontains : s.contains k = true := by
    rw [KTimers.contains, ← Bool.decide_or]
    exact decide_eq_true hk
  have hcontains' : q.contains (s.layout.addr k) = some true := by rw [h.contains, hcontains]
  refine ⟨?_, ?_⟩
  · rw [insert, hcontains']
    rfl
  · rw [KTimers.insert, if_pos hcontains]

/-- `remove` of a linked timer. -/
theorem remove_refines (h : q.Represents s) (hk : s.Linked k) :
    ∃ q' s', q.remove (some (s.layout.addr k)) = some (q', some (s.layout.addr k)) ∧
      s.remove k = .ok s' ∧ q'.Represents s' := by
  obtain ⟨b, hb⟩ := mem_timersOf_iff.mpr hk
  have hflag : (s.entity k).active = b := by
    rw [← h.entity]
    exact h.wf.flag b _ hb
  obtain ⟨q', hrun, hwf, hent⟩ := QueueMem.remove_spec h.wf hb
  have hnow : q'.nowTicks = s.nowTicks := (remove_nowTicks hrun).trans h.nowTicks
  have hentity : ∀ j, q'.entity (s.layout.addr j) = s.entity j := by
    intro j
    rw [hent, h.entity]
  cases b with
  | true =>
      have hka : k ∈ s.active := mem_timersOf.mp hb
      refine ⟨q', { s with active := s.active.erase k }, hrun, ?_, ⟨?_, hentity, hnow⟩⟩
      · rw [KTimers.remove, if_pos hflag, unlink_of_mem hka, ok_bind]
      · rw [timersOf, if_pos rfl, ← List.map_erase s.layout.injective] at hwf
        exact wf_timersOf_active hwf rfl rfl
  | false =>
      have hki : k ∈ s.inactive := mem_timersOf.mp hb
      refine ⟨q', { s with inactive := s.inactive.erase k }, hrun, ?_, ⟨?_, hentity, hnow⟩⟩
      · rw [KTimers.remove, if_neg (by rw [hflag]; decide), unlink_of_mem hki, ok_bind]
      · rw [timersOf, if_neg Bool.false_ne_true, ← List.map_erase s.layout.injective] at hwf
        exact wf_timersOf_inactive hwf rfl rfl

/-- `dequeue` of a linked timer. -/
theorem dequeue_refines (hs : s.Wf) (h : q.Represents s) (hk : s.Linked k) :
    ∃ q' s', q.dequeue (some (s.layout.addr k)) = some (q', some (s.layout.addr k)) ∧
      s.dequeue k = .ok s' ∧ q'.Represents s' := by
  obtain ⟨q₁, s₁, hrun, hrem, h₁⟩ := remove_refines h hk
  obtain ⟨s₂, hrem', hunlinks⟩ := KTimers.remove_spec hs hk
  obtain rfl : s₁ = s₂ := Except.ok.inj (hrem.symm.trans hrem')
  have hlayout : s₁.layout = s.layout := KTimers.remove_layout hrem
  have hset := setEntity_refines h₁ hunlinks.not_linked { s₁.entity k with active := false }
  rw [hlayout] at hset
  refine ⟨_, _, ?_, ?_, hset⟩
  · rw [dequeue, hrun, ← h₁.entity, hlayout]
    rfl
  · rw [KTimers.dequeue, hrem, ok_bind]

end QueueMem

end Rtsched

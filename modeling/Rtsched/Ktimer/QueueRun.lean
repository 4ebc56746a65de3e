import Rtsched.Ktimer.QueueSpec
import Rtsched.Lib.Runs

/-!
Whole runs of the timer queue from `KTimerQueue::new`: timers are enqueued with either flag,
removed, dequeued and popped in any order, and change their expiration while detached.

* `QueueConfig.exec_spec`: every operation within its contract returns the timer it takes out,
  writes the entities it should and keeps the invariant.
* `QueueConfig.reachable_ordered`: in every reachable configuration the flag tells the tree, the
  caches are the minima, and `first`, `last`, `len` and the walk along `next` describe the union
  of both trees in `(expire_at, address)` order.
-/

namespace Rtsched

open RedBlack Ordered Runs

/-- The queue and the set of linked timers. -/
structure QueueConfig where
  mem : QueueMem
  linked : Finset Addr

/-- The operations of a user of the queue. -/
inductive QueueOp
  | enqueueActive (a : Addr)
  | enqueueInactive (a : Addr)
  | remove (a : Addr)
  | dequeue (a : Addr)
  | popFirst
  | setExpireAt (a : Addr) (expireAt : ℕ)

/-- The contract: enqueue and re-key detached timers, remove linked ones. -/
def QueueOp.Allowed (c : QueueConfig) : QueueOp → Prop
  | enqueueActive a => a ∉ c.linked
  | enqueueInactive a => a ∉ c.linked
  | remove a => a ∈ c.linked
  | dequeue a => a ∈ c.linked
  | popFirst => True
  | setExpireAt a _ => a ∉ c.linked

namespace QueueConfig

/-- The first linked timer, if there is one. -/
def least (c : QueueConfig) : Finset Addr :=
  c.linked.filter fun a => ∀ b ∈ c.linked, b = a ∨ c.mem.cmp a b = .lt

/-- The timer that an operation has to take out. -/
def taken (c : QueueConfig) : QueueOp → Finset Addr
  | .remove a | .dequeue a => {a}
  | .popFirst => c.least
  | .enqueueActive _ | .enqueueInactive _ | .setExpireAt _ _ => ∅

/-- The timer entities that an operation has to leave. -/
def entityAfter (c : QueueConfig) : QueueOp → Addr → KTimerEntity
  | .enqueueActive a => Function.update c.mem.entity a { c.mem.entity a with active := true }
  | .enqueueInactive a | .dequeue a =>
      Function.update c.mem.entity a { c.mem.entity a with active := false }
  | .setExpireAt a v => Function.update c.mem.entity a ((c.mem.entity a).setExpireAt v)
  | .remove _ | .popFirst => c.mem.entity

/-- One operation and the pointer it returns.  The linked set follows from the operation alone:
whatever `remove` returns, its argument is no longer linked. -/
def exec (c : QueueConfig) : QueueOp → Option (QueueConfig × Ptr)
  | .enqueueActive a => do
      let q ← c.mem.enqueueActive a
      some (⟨q, insert a c.linked⟩, none)
  | .enqueueInactive a => do
      let q ← c.mem.enqueueInactive a
      some (⟨q, insert a c.linked⟩, none)
  | .remove a => do
      let (q, r) ← c.mem.remove (some a)
      some (⟨q, c.linked \ {a}⟩, r)
  | .dequeue a => do
      let (q, r) ← c.mem.dequeue (some a)
      some (⟨q, c.linked \ {a}⟩, r)
  | .popFirst => do
      let (q, r) ← c.mem.popFirst
      some (⟨q, c.linked \ c.least⟩, r)
  | .setExpireAt a v =>
      some ({ c with mem := c.mem.setEntity a ((c.mem.entity a).setExpireAt v) }, none)

/-- `KTimerQueue::new` over any memory. -/
def Start (c : QueueConfig) : Prop := c.mem.toKTimerQueue = KTimerQueue.new ∧ c.linked = ∅

/-- An operation within its contract. -/
def Step (c c' : QueueConfig) : Prop := ∃ (op : QueueOp) (r : Ptr),
  op.Allowed c ∧ c.exec op = some (c', r)

/-- The queue is well formed and its two sequences hold exactly the linked timers. -/
def Inv (c : QueueConfig) : Prop := ∃ L, c.mem.Wf L ∧ ∀ a, a ∈ c.linked ↔ ∃ b, a ∈ L b

lemma inv_of_start {c : QueueConfig} (h : c.Start) : c.Inv := by
  obtain ⟨hnew, hlinked⟩ := h
  refine ⟨fun _ => [], ⟨fun b => ?_, fun b => ?_, by simp⟩, by simp [hlinked]⟩
  · have htree : (c.mem.tree b).toRBTree = RBTree.new := by
      cases b <;> simp [QueueMem.tree, hnew, KTimerQueue.new]
    refine ⟨⟨.nil, ⟨?_, trivial, List.nodup_nil⟩, ⟨rfl, trivial, 0, ?_⟩, rfl⟩, ?_, .nil⟩
    · rw [htree]; rfl
    · exact Shape.blackHeight_nil.mpr rfl
    · rw [htree]; rfl
  · cases b <;> simp [QueueMem.leftMost, hnew, KTimerQueue.new]

/-- Inserting a detached timer. -/
lemma inv_insert {c : QueueConfig} {L : Bool → List Addr} {a : Addr} (h : c.mem.Wf L)
    (hl : ∀ a, a ∈ c.linked ↔ ∃ b, a ∈ L b) (ha : a ∉ c.linked) (b : Bool) :
    ∃ q, c.mem.insert a b = some q ∧ Inv ⟨q, insert a c.linked⟩ ∧
      q.entity = Function.update c.mem.entity a { c.mem.entity a with active := b } := by
  have ha' : ∀ b, a ∉ L b := fun b hb => ha ((hl a).mpr ⟨b, hb⟩)
  obtain ⟨q, hrun, hq, hent⟩ := QueueMem.insert_spec h ha' b
  refine ⟨q, hrun, ⟨_, hq, fun x => ?_⟩, hent⟩
  rw [Finset.mem_insert, hl, Bool.exists_bool, Bool.exists_bool]
  cases b <;> simp <;> tauto

/-- Removing a linked timer; only its own entity may be written to afterwards. -/
lemma inv_remove {c : QueueConfig} {L : Bool → List Addr} {a : Addr} (h : c.mem.Wf L)
    (hl : ∀ a, a ∈ c.linked ↔ ∃ b, a ∈ L b) (ha : a ∈ c.linked) :
    ∃ q, c.mem.remove (some a) = some (q, some a) ∧ q.entity = c.mem.entity
      ∧ Inv ⟨q, c.linked \ {a}⟩ ∧ ∀ e, Inv ⟨q.setEntity a e, c.linked \ {a}⟩ := by
  obtain ⟨b, hb⟩ := (hl a).mp ha
  obtain ⟨q, hrun, hq, hent⟩ := QueueMem.remove_spec h hb
  have hnd := (h.tree b).sorted.nodup
  have hb' := h.disjoint hb
  have hlinked : ∀ x, x ∈ c.linked \ {a} ↔ ∃ b', x ∈ Function.update L b ((L b).erase a) b' := by
    intro x
    rw [Finset.mem_sdiff, Finset.mem_singleton, hl, Bool.exists_bool, Bool.exists_bool]
    by_cases hx : x = a
    · subst hx
      cases b <;> simp_all [hnd.mem_erase_iff]
    · cases b <;> simp [hnd.mem_erase_iff, hx]
  refine ⟨q, hrun, hent, ⟨_, hq, hlinked⟩, fun e => ⟨_, hq.setEntity (fun b' hb' => ?_) e, hlinked⟩⟩
  have := (hlinked a).mpr ⟨b', hb'⟩
  simp at this

/-- The first linked timer is the one that `first` returns. -/
lemma least_eq {c : QueueConfig} {L : Bool → List Addr} (h : c.mem.Wf L)
    (hl : ∀ a, a ∈ c.linked ↔ ∃ b, a ∈ L b) : c.least = c.mem.first.toFinset := by
  ext a
  rw [least, Finset.mem_filter, QueueMem.first_spec h, Option.mem_toFinset, Option.mem_def,
    h.increasing_all.head?_eq_some_iff]
  simp only [QueueMem.Wf.mem_all, hl]

/-- Every operation within its contract returns what it has to take out, writes the entities it
has to, and keeps the invariant. -/
lemma exec_spec {c : QueueConfig} (h : c.Inv) {op : QueueOp} (hop : op.Allowed c) :
    ∃ c' r, c.exec op = some (c', r) ∧ r.toFinset = c.taken op ∧
      c'.mem.entity = c.entityAfter op ∧ c'.Inv := by
  obtain ⟨L, hwf, hl⟩ := h
  cases op with
  | enqueueActive a =>
      obtain ⟨q, hrun, hq, hent⟩ := inv_insert hwf hl hop true
      exact ⟨_, _, by simp only [exec, QueueMem.enqueueActive, hrun]; rfl, rfl, hent, hq⟩
  | enqueueInactive a =>
      obtain ⟨q, hrun, hq, hent⟩ := inv_insert hwf hl hop false
      exact ⟨_, _, by simp only [exec, QueueMem.enqueueInactive, hrun]; rfl, rfl, hent, hq⟩
  | remove a =>
      obtain ⟨q, hrun, hent, hq, -⟩ := inv_remove hwf hl hop
      exact ⟨_, _, by simp only [exec, hrun]; rfl, by simp [taken], hent, hq⟩
  | dequeue a =>
      obtain ⟨q, hrun, hent, -, hq⟩ := inv_remove hwf hl hop
      refine ⟨_, _, by simp only [exec, QueueMem.dequeue, hrun]; rfl, by simp [taken], ?_, hq _⟩
      simp [QueueMem.setEntity, entityAfter, hent]
  | popFirst =>
      have hleast := least_eq hwf hl
      cases hfirst : c.mem.first with
      | none =>
          rw [hfirst] at hleast
          refine ⟨⟨c.mem, c.linked \ c.least⟩, none, ?_, hleast.symm, rfl, L, hwf, ?_⟩
          · simp only [exec, QueueMem.popFirst, hfirst]
            rfl
          · simpa [hleast] using hl
      | some a =>
          rw [hfirst] at hleast
          have hmem : a ∈ c.linked := by
            rw [QueueMem.first_spec hwf] at hfirst
            exact (hl a).mpr ((QueueMem.Wf.mem_all L).mp (List.mem_of_mem_head? hfirst))
          obtain ⟨q, hrun, hent, hq, -⟩ := inv_remove hwf hl hmem
          refine ⟨_, _, by simp only [exec, QueueMem.popFirst, hfirst, hrun]; rfl, hleast.symm,
            hent, ?_⟩
          simpa [hleast] using hq
  | setExpireAt a v =>
      exact ⟨_, _, rfl, rfl, rfl, L, hwf.setEntity (fun b hb => hop ((hl a).mpr ⟨b, hb⟩)) _, hl⟩

lemma inv_of_reach {c : QueueConfig} (h : Reach Start Step c) : c.Inv := by
  refine h.invariant (fun _ => inv_of_start) fun c c' hc hstep => ?_
  obtain ⟨op, r, hop, hrun⟩ := hstep
  obtain ⟨c'', r', hrun', -, -, hinv⟩ := exec_spec hc hop
  obtain ⟨rfl, -⟩ := Prod.mk.inj (Option.some.inj (hrun.symm.trans hrun'))
  exact hinv

/-- **The timer queue is one ordered sequence in two trees.**  In every reachable configuration a
linked timer lies in the tree its flag names and in no other; the cached pointer of each tree is
its minimum, null exactly when the tree is empty; and there is one strictly increasing sequence
of all linked timers of which `first` is the head, `last` the last element, `len` the length, and
which the walk from `first` along `next` visits before it meets null.  Every operation within its
contract returns: `remove` and `dequeue` with their argument, `pop_first` with the first timer (null
if there is none); `enqueue` sets the flag, `dequeue` clears it, and the others keep it. -/
theorem reachable_ordered (c : QueueConfig) (h : Reach Start Step c) :
    (∀ a ∈ c.linked, ∀ b, (c.mem.tree b).contains a = some ((c.mem.entity a).active == b))
    ∧ (∀ b, (c.mem.leftMost b = none ↔ ∀ a ∈ c.linked, (c.mem.entity a).active ≠ b)
      ∧ ∀ m, c.mem.leftMost b = some m → m ∈ c.linked ∧ (c.mem.entity m).active = b
        ∧ ∀ a ∈ c.linked, (c.mem.entity a).active = b → a = m ∨ c.mem.cmp m a = .lt)
    ∧ (∃ l : List Addr, l.Pairwise (fun x y => c.mem.cmp x y = .lt) ∧ l.toFinset = c.linked
      ∧ c.mem.first = l.head? ∧ c.mem.last = some l.getLast? ∧ c.mem.len = l.length
      ∧ c.mem.visit c.mem.len c.mem.first = some l)
    ∧ ∀ op : QueueOp, op.Allowed c → ∃ c' r, c.exec op = some (c', r) ∧ Step c c' ∧
      r.toFinset = c.taken op ∧ c'.mem.entity = c.entityAfter op := by
  have hinv := inv_of_reach h
  have hprogress : ∀ op : QueueOp, op.Allowed c → ∃ c' r, c.exec op = some (c', r) ∧ Step c c' ∧
      r.toFinset = c.taken op ∧ c'.mem.entity = c.entityAfter op := by
    intro op hop
    obtain ⟨c', r, hrun, htaken, hent, -⟩ := exec_spec hinv hop
    exact ⟨c', r, hrun, ⟨op, r, hop, hrun⟩, htaken, hent⟩
  obtain ⟨L, hwf, hl⟩ := hinv
  -- a linked timer is in the sequence of its flag
  have hin : ∀ {a b}, a ∈ c.linked → (c.mem.entity a).active = b → a ∈ L b := by
    intro a b ha hab
    obtain ⟨b', hb'⟩ := (hl a).mp ha
    rw [hwf.flag b' a hb'] at hab
    exact hab ▸ hb'
  refine ⟨fun a ha b => ?_, fun b => ⟨?_, fun m hm => ?_⟩, ⟨c.mem.all L, ?_⟩, hprogress⟩
  · rw [hwf.contains_tree]
    by_cases hab : (c.mem.entity a).active = b
    · simp [hin ha hab, hab]
    · have : a ∉ L b := fun hb => hab (hwf.flag b a hb)
      simp [this, hab]
  · rw [hwf.leftMost, List.head?_eq_none_iff]
    constructor
    · intro hnil a ha hab
      have := hin ha hab
      simp [hnil] at this
    · intro hnone
      refine List.eq_nil_iff_forall_not_mem.mpr fun a ha => ?_
      exact hnone a ((hl a).mpr ⟨b, ha⟩) (hwf.flag b a ha)
  · rw [hwf.leftMost] at hm
    have hmb := List.mem_of_mem_head? hm
    refine ⟨(hl m).mpr ⟨b, hmb⟩, hwf.flag b m hmb, fun a ha hab => ?_⟩
    by_cases ham : a = m
    · exact Or.inl ham
    · exact Or.inr ((hwf.tree b).sorted.head_lt hm (hin ha hab) ham)
  · have hlen : c.mem.len = (c.mem.all L).length := by
      rw [QueueMem.all, length_merged, ← (hwf.tree true).len, ← (hwf.tree false).len]
      rfl
    refine ⟨hwf.increasing_all, ?_, QueueMem.first_spec hwf, QueueMem.last_spec hwf, hlen, ?_⟩
    · ext a
      rw [List.mem_toFinset, QueueMem.Wf.mem_all, hl]
    · rw [hlen, QueueMem.first_spec hwf]
      exact QueueMem.visit_spec hwf (List.nil_append _).symm

/-- The empty queue over a memory of detached timers. -/
def empty : QueueConfig :=
  ⟨⟨KTimerQueue.new, fun _ => RbNode.new, fun _ => .newWithTiming 0 ⟨0, 0, 0⟩⟩, ∅⟩

instance (c : QueueConfig) : (op : QueueOp) → Decidable (op.Allowed c)
  | .enqueueActive a | .enqueueInactive a | .setExpireAt a _ =>
      inferInstanceAs (Decidable (a ∉ c.linked))
  | .remove a | .dequeue a => inferInstanceAs (Decidable (a ∈ c.linked))
  | .popFirst => inferInstanceAs (Decidable True)

/-- An operation within its contract. -/
def next (c : QueueConfig) (op : QueueOp) : Option QueueConfig :=
  if op.Allowed c then (c.exec op).map Prod.fst else none

lemma exec_of_next {c c' : QueueConfig} {op : QueueOp} (h : c.next op = some c') :
    op.Allowed c ∧ ∃ r, c.exec op = some (c', r) := by
  simp only [next, Option.ite_none_right_eq_some, Option.map_eq_some_iff] at h
  obtain ⟨hop, ⟨c'', r⟩, hrun, rfl⟩ := h
  exact ⟨hop, r, hrun⟩

lemma step_of_next (c : QueueConfig) (op : QueueOp) (c' : QueueConfig) (h : c.next op = some c') :
    Step c c' := by
  obtain ⟨hop, r, hrun⟩ := exec_of_next h
  exact ⟨op, r, hop, hrun⟩

/-- An inactive timer before two active ones; then the last one is dequeued, the first one popped
and the third one removed. -/
def dequeueTrial : Option (QueueConfig × QueueConfig × QueueConfig × QueueConfig) := do
  let c ← [.setExpireAt 7 9, .enqueueActive 7, .enqueueInactive 4, .enqueueActive 5].foldlM next
    empty
  let c₁ ← c.next (.dequeue 7)
  let c₂ ← c₁.next .popFirst
  let c₃ ← c₂.next (.remove 5)
  some (c, c₁, c₂, c₃)

/-- Timers in both trees, taken out by each of the three operations. -/
theorem reachable_ordered_removed : ∃ c c₁ c₂ c₃ : QueueConfig, Reach Start Step c ∧
    c.linked = {4, 5, 7} ∧ c.mem.firstActive = some 5 ∧ c.mem.firstInactive = some 4 ∧
    c.exec (.dequeue 7) = some (c₁, some 7) ∧ (c₁.mem.entity 7).active = false ∧
    c₁.exec .popFirst = some (c₂, some 4) ∧ c₂.exec (.remove 5) = some (c₃, some 5) ∧
    c₃.mem.len = 0 := by
  have htest : dequeueTrial.any (fun (c, c₁, _, c₃) => c.linked = {4, 5, 7} ∧
      c.mem.firstActive = some 5 ∧ c.mem.firstInactive = some 4 ∧ c₁.least = {4} ∧
      c₃.linked = ∅) = true := by decide +kernel
  obtain ⟨⟨_, _, _, _⟩, hrun, htest⟩ := (Option.any_eq_true ..).mp htest
  simp only [dequeueTrial, Option.bind_eq_bind, Option.bind_eq_some_iff, Option.some.injEq,
    Prod.mk.injEq] at hrun
  obtain ⟨c, hc, c₁, hc₁, c₂, hc₂, c₃, hc₃, rfl, rfl, rfl, rfl⟩ := hrun
  obtain ⟨hlinked, hactive, hinactive, hleast, hempty⟩ := of_decide_eq_true htest
  have h₀ : Reach Start Step empty := .start ⟨rfl, rfl⟩
  have h := h₀.foldlM step_of_next hc
  have h₁ := h.step (step_of_next _ _ _ hc₁)
  have h₂ := h₁.step (step_of_next _ _ _ hc₂)
  -- each operation returns what it has to take out
  have hout : ∀ {c c' : QueueConfig} {op : QueueOp} {a : Addr}, Reach Start Step c →
      c.next op = some c' → c.taken op = {a} →
      c.exec op = some (c', some a) ∧ c'.mem.entity = c.entityAfter op := by
    intro c c' op a h hnext htaken
    obtain ⟨hop, r, hrun⟩ := exec_of_next hnext
    obtain ⟨c'', r', hrun', -, hr, hent⟩ := (reachable_ordered c h).2.2.2 op hop
    obtain ⟨rfl, rfl⟩ := Prod.mk.inj (Option.some.inj (hrun.symm.trans hrun'))
    have hmem : a ∈ r.toFinset := by rw [hr, htaken, Finset.mem_singleton]
    obtain rfl : r = some a := Option.mem_toFinset.mp hmem
    exact ⟨hrun, hent⟩
  obtain ⟨hrun₁, hent⟩ := hout h hc₁ rfl
  obtain ⟨hrun₂, -⟩ := hout h₁ hc₂ hleast
  obtain ⟨hrun₃, -⟩ := hout h₂ hc₃ rfl
  obtain ⟨-, -, ⟨l, -, hset, -, -, hlen, -⟩, -⟩ :=
    reachable_ordered c₃ (h₂.step (step_of_next _ _ _ hc₃))
  refine ⟨c, c₁, c₂, c₃, h, hlinked, hactive, hinactive, hrun₁, ?_, hrun₂, hrun₃, ?_⟩
  · rw [hent, entityAfter, Function.update_self]
  · rw [hempty, List.toFinset_eq_empty_iff] at hset
    rw [hlen, hset]
    rfl

end QueueConfig

end Rtsched

import Rtsched.Ktimer.Entity
import Rtsched.Lib.Increasing

/-!
`KTimerQueue` of `src/ktimer.rs` at the level of pointers: two trees whose nodes share one
memory, each with a cached minimum.

As in `RBTree`, `none` stands for a failed assertion or a null dereference.
-/

namespace Rtsched

open RedBlack Ordered

/-- The queue value: the two trees, their cached minima and the clock. -/
structure KTimerQueue where
  activeTree : RBTree
  inactiveTree : RBTree
  firstActive : Ptr
  firstInactive : Ptr
  nowTicks : ℕ
  deriving DecidableEq, Repr

/-- `KTimerQueue::new`. -/
def KTimerQueue.new : KTimerQueue := ⟨RBTree.new, RBTree.new, none, none, 0⟩

/-- The queue together with the memory: the nodes and the other fields of the entities. -/
structure QueueMem extends KTimerQueue where
  heap : Addr → RbNode
  entity : Addr → KTimerEntity

namespace QueueMem

/-- `KTimerEntity::cmp`: by expiration, then by address. -/
def cmp (q : QueueMem) : Addr → Addr → Ordering := keyCmp (fun a => (q.entity a).expireAt) id

/-- The tree of the active or of the inactive timers, in the shared memory. -/
def tree (q : QueueMem) (active : Bool) : TreeMem :=
  ⟨if active then q.activeTree else q.inactiveTree, q.heap⟩

/-- Write back one of the trees. -/
def setTree (q : QueueMem) (active : Bool) (s : TreeMem) : QueueMem :=
  if active then { q with activeTree := s.toRBTree, heap := s.heap }
  else { q with inactiveTree := s.toRBTree, heap := s.heap }

/-- The cached minimum of one of the trees. -/
def leftMost (q : QueueMem) (active : Bool) : Ptr :=
  if active then q.firstActive else q.firstInactive

def setLeftMost (q : QueueMem) (active : Bool) (p : Ptr) : QueueMem :=
  if active then { q with firstActive := p } else { q with firstInactive := p }

def setEntity (q : QueueMem) (a : Addr) (e : KTimerEntity) : QueueMem :=
  { q with entity := Function.update q.entity a e }

/-- `len`. -/
def len (q : QueueMem) : ℕ := q.activeTree.len + q.inactiveTree.len

/-- `earlier_of`. -/
def earlierOf (q : QueueMem) (a b : Ptr) : Ptr :=
  match a, b with
  | none, b => b
  | some a, none => some a
  | some a, some b => if q.cmp a b = .lt then some a else some b

/-- `first`: the earlier of the two cached minima. -/
def first (q : QueueMem) : Ptr := q.earlierOf q.firstActive q.firstInactive

/-- `last`. -/
def last (q : QueueMem) : Option Ptr := do
  let active ← (q.tree true).last
  let inactive ← (q.tree false).last
  match active, inactive with
  | none, inactive => some inactive
  | some a, none => some (some a)
  | some a, some b => some (if q.cmp a b = .gt then some a else some b)

/-- `next`: the successor in the entity's own tree or the upper bound in the other one. -/
def next (q : QueueMem) : Ptr → Option Ptr
  | none => some none
  | some a => do
      let active := (q.entity a).active
      let own ← (q.tree active).next (some a)
      let other ← (q.tree !active).upperBound q.cmp a
      some (q.earlierOf own other)

/-- `contains`. -/
def contains (q : QueueMem) (a : Addr) : Option Bool := do
  if (← (q.tree true).contains a) then some true
  else (q.tree false).contains a

/-- `insert`, the common part of `enqueue_active` and `enqueue_inactive`. -/
def insert (q : QueueMem) (a : Addr) (active : Bool) : Option QueueMem := do
  if (← q.contains a) then none
  else
    let s ← (q.tree active).insert q.cmp a
    let q := q.setTree active s
    let q := q.setEntity a { q.entity a with active := active }
    match q.leftMost active with
    | none => some (q.setLeftMost active (some a))
    | some m => some (if q.cmp a m = .lt then q.setLeftMost active (some a) else q)

def enqueueActive (q : QueueMem) (a : Addr) : Option QueueMem := q.insert a true

def enqueueInactive (q : QueueMem) (a : Addr) : Option QueueMem := q.insert a false

/-- `remove`: the tree is chosen by the entity's active flag, and the next minimum is looked up
before the tree changes. -/
def remove (q : QueueMem) : Ptr → Option (QueueMem × Ptr)
  | none => some (q, none)
  | some a => do
      let active := (q.entity a).active
      let removingLeftMost := some a = q.leftMost active
      let nextLeftMost ← if removingLeftMost then (q.tree active).next (some a) else some none
      let (s, removed) ← (q.tree active).remove (some a)
      let q := q.setTree active s
      some (if removingLeftMost then q.setLeftMost active nextLeftMost else q, removed)

/-- `dequeue`: remove the timer and clear its flag. -/
def dequeue (q : QueueMem) (p : Ptr) : Option (QueueMem × Ptr) := do
  let (q, removed) ← q.remove p
  match removed with
  | none => some (q, none)
  | some a => some (q.setEntity a { q.entity a with active := false }, some a)

/-- `pop_first`. -/
def popFirst (q : QueueMem) : Option (QueueMem × Ptr) :=
  match q.first with
  | none => some (q, none)
  | some a => do
      let (q, _) ← q.remove (some a)
      some (q, some a)

end QueueMem

end Rtsched

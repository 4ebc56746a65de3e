import Rtsched.Kernel.Sched
import Rtsched.Lib.Chained
import Rtsched.RBTree.Insert
import Rtsched.RBTree.Remove

/-!
`src/waitq.rs` and the traversal of `src/diagnostics/waitq.rs` at the level of pointers: the timeout
tree, whose nodes and keys are in the wait entities, and the list of suspended threads, whose links
are in the same entities.

A wait entity stands for the thread it is embedded in: it sits at the same offset in every thread.
As in `RBTree`, `none` stands for a failed assertion, a null dereference or a loop that does not
end.

* `WaitMem.Index q l m`: the tree holds `l`, the list holds `m`, and the states tell them apart.
* `WaitMem.insertWaitThread_spec`, `WaitMem.removeWaitThread_spec`,
  `WaitMem.popExpiredWaitThread_spec`: what the operations do to the two sequences.
* `WaitMem.traverse_spec`: the traversal visits `l` and then `m`.
* `WaitMem.Represents`: the sequences are those of `Sched`, and the operations of `Sched` on them
  those on the pointers.
-/

namespace Rtsched

open RedBlack Ordered Chained

/-! ### The model -/

/-- `SuspendedWaitList`. -/
structure SuspendedWaitList where
  head : Ptr
  tail : Ptr
  deriving DecidableEq

/-- `SuspendedWaitList::new`. -/
def SuspendedWaitList.new : SuspendedWaitList := ⟨none, none⟩

/-- The static `WAIT_QUEUE` together with the memory: the nodes, the keys and the list links of the
wait entities, and the kinds and states of the threads. -/
structure WaitMem where
  tree : RBTree
  suspended : SuspendedWaitList
  heap : Addr → RbNode
  entity : Addr → WaitEntity
  suspendedPrev : Addr → Ptr
  suspendedNext : Addr → Ptr
  kind : Addr → ThreadKind
  state : Addr → ThreadState

/-- `WaitEntity::is_expired_at`. -/
def WaitEntity.isExpiredAt (e : WaitEntity) (nowTicks : ℕ) : Bool := decide (e.wakeAt ≤ nowTicks)

namespace WaitMem

/-- `WaitEntity::cmp`: by wake-up time, then by event, then by address. -/
def cmp (q : WaitMem) : Addr → Addr → Ordering :=
  compareLex (compareOn fun a => (q.entity a).wakeAt)
    (keyCmp (fun a => eventRank (q.entity a).waitevt) id)

instance (q : WaitMem) : Std.TransCmp q.cmp := inferInstanceAs (Std.TransCmp (compareLex _ _))

instance (q : WaitMem) : Std.LawfulEqCmp q.cmp :=
  inferInstanceAs (Std.LawfulEqCmp (WaitQueue.cmp ⟨[], [], q.entity⟩))

/-- The timeout tree in its memory. -/
def treeMem (q : WaitMem) : TreeMem := ⟨q.tree, q.heap⟩

def setTree (q : WaitMem) (s : TreeMem) : WaitMem := { q with tree := s.toRBTree, heap := s.heap }

def setPrev (q : WaitMem) (a : Addr) (p : Ptr) : WaitMem :=
  { q with suspendedPrev := Function.update q.suspendedPrev a p }

def setNext (q : WaitMem) (a : Addr) (p : Ptr) : WaitMem :=
  { q with suspendedNext := Function.update q.suspendedNext a p }

def setHead (q : WaitMem) (p : Ptr) : WaitMem :=
  { q with suspended := { q.suspended with head := p } }

def setTail (q : WaitMem) (p : Ptr) : WaitMem :=
  { q with suspended := { q.suspended with tail := p } }

def setEntity (q : WaitMem) (a : Addr) (e : WaitEntity) : WaitMem :=
  { q with entity := Function.update q.entity a e }

/-- `ThreadCtx::set_state`. -/
def setState (q : WaitMem) (a : Addr) (x : ThreadState) : Option WaitMem :=
  if (q.state a).canTransitionTo x then some { q with state := Function.update q.state a x }
  else none

/-- `SuspendedWaitList::push_back`. -/
def pushBack (q : WaitMem) (a : Addr) : Option WaitMem :=
  if some a = q.suspended.head ∨ some a = q.suspended.tail then none
  else if q.suspendedPrev a ≠ none ∨ q.suspendedNext a ≠ none then none
  else
    let q := q.setPrev a q.suspended.tail
    let q := match q.suspended.tail with
      | none => q.setHead (some a)
      | some b => q.setNext b (some a)
    some (q.setTail (some a))

/-- The first half of `SuspendedWaitList::remove`: what points forward to `a` points past it. -/
def skipForward (q : WaitMem) (a : Addr) (prev next : Ptr) : Option WaitMem :=
  match prev with
  | none => if q.suspended.head = some a then some (q.setHead next) else none
  | some b => some (q.setNext b next)

/-- The second half: what points back to `a` points past it. -/
def skipBack (q : WaitMem) (a : Addr) (prev next : Ptr) : Option WaitMem :=
  match next with
  | none => if q.suspended.tail = some a then some (q.setTail prev) else none
  | some b => some (q.setPrev b prev)

/-- `SuspendedWaitList::remove`. -/
def removeSuspended (q : WaitMem) (a : Addr) : Option WaitMem := do
  let prev := q.suspendedPrev a
  let next := q.suspendedNext a
  let q ← q.skipForward a prev next
  let q ← q.skipBack a prev next
  some ((q.setPrev a none).setNext a none)

/-- `insert_wait_thread`; an idle thread has no wait entity. -/
def insertWaitThread (q : WaitMem) (a : Addr) : Option WaitMem :=
  if q.kind a = .idle then none
  else if (q.entity a).wakeAt = u64Max then do
    let q ← q.setState a .suspended
    q.pushBack a
  else do
    let q ← q.setState a .waiting
    if (← q.treeMem.contains a) then none
    else
      let q := { q with heap := Function.update q.heap a RbNode.new }
      let s ← q.treeMem.insert q.cmp a
      some (q.setTree s)

/-- `remove_wait_thread`. -/
def removeWaitThread (q : WaitMem) (a : Addr) : Option WaitMem :=
  if q.kind a = .idle then none
  else if q.state a = .suspended then q.removeSuspended a
  else do
    let (s, _) ← q.treeMem.remove (some a)
    some (q.setTree s)

/-- `pop_expired_wait_thread`. -/
def popExpiredWaitThread (q : WaitMem) (nowTicks : ℕ) : Option (WaitMem × Ptr) := do
  let first ← q.treeMem.first
  match first with
  | none => some (q, none)
  | some a =>
      if !(q.entity a).isExpiredAt nowTicks then some (q, none)
      else
        let (s, popped) ← q.treeMem.popFirst
        some (q.setTree s, popped)

/-- `WaitQueue::next_wait_entity`, also `traverse_wait_queue`. -/
def nextWaitEntity (q : WaitMem) (cursor : Ptr) : Option Ptr := do
  match cursor with
  | none =>
      let entity ← q.treeMem.first
      some (if entity = none then q.suspended.head else entity)
  | some a =>
      if q.state a = .suspended then some (q.suspendedNext a)
      else
        let entity ← q.treeMem.next (some a)
        some (if entity = none then q.suspended.head else entity)

/-- The loop of `traverse_wait_queue_fn` from a cursor: the threads that are visited. -/
def traverseFrom (q : WaitMem) : ℕ → Ptr → Option (List Addr)
  | _, none => some []
  | 0, some _ => none
  | fuel + 1, some a => do
      let cursor ← q.nextWaitEntity (some a)
      let visited ← traverseFrom q fuel cursor
      some (a :: visited)

/-- `traverse_wait_queue_fn`, for at most `fuel` turns of its loop. -/
def traverseWaitQueueFn (q : WaitMem) (fuel : ℕ) : Option (List Addr) := do
  let cursor ← q.nextWaitEntity none
  q.traverseFrom fuel cursor

/-! ### The index of the blocked threads -/

variable {q q' : WaitMem} {l m l₁ l₂ v₁ v₂ : List Addr} {a : Addr}

/-- The timeout tree holds `l`, the suspended list holds `m`, and the states tell which threads are
where; the entities outside the list have no list links. -/
structure Index (q : WaitMem) (l m : List Addr) : Prop where
  tree : q.treeMem.Wf q.cmp l
  list : Listed q.suspended.head q.suspended.tail q.suspendedPrev q.suspendedNext m
  detached : ∀ a ∉ m, q.suspendedPrev a = none ∧ q.suspendedNext a = none
  waiting : ∀ a, a ∈ l ↔ q.state a = .waiting
  suspended : ∀ a, a ∈ m ↔ q.state a = .suspended
  kind : ∀ a, (q.state a).isBlocked → q.kind a ≠ .idle

/-- Only the state of the thread `a` has changed, apart from links. -/
structure Moved (a : Addr) (x : ThreadState) (q q' : WaitMem) : Prop where
  entity : q'.entity = q.entity
  kind : q'.kind = q.kind
  state : q'.state = Function.update q.state a x

namespace Index

lemma disjoint (h : q.Index l m) (ha : a ∈ l) : a ∉ m := fun ha' => by
  rw [h.waiting] at ha
  rw [h.suspended, ha] at ha'
  cases ha'

/-- The blocked threads are those of the two sequences. -/
lemma mem_iff (h : q.Index l m) (a : Addr) : a ∈ l ++ m ↔ (q.state a).isBlocked := by
  rw [List.mem_append, h.waiting, h.suspended]
  cases q.state a <;> simp [ThreadState.isBlocked]

lemma nodup (h : q.Index l m) : (l ++ m).Nodup := by
  refine List.nodup_append.mpr ⟨Increasing.nodup h.tree.sorted, h.list.nodup, ?_⟩
  rintro a ha b hb rfl
  exact h.disjoint ha hb

lemma notMem_of_unblocked (h : q.Index l m) (ha : (q.state a).isBlocked = false) :
    a ∉ l ∧ a ∉ m := by
  have hblocked : a ∉ l ++ m := by
    rw [h.mem_iff, ha]
    decide
  rwa [List.mem_append, not_or] at hblocked

end Index

lemma setState_eq {x : ThreadState} (h : (q.state a).canTransitionTo x = true) :
    q.setState a x = some { q with state := Function.update q.state a x } := if_pos h

/-- An element outside the list is added at its end. -/
lemma pushBack_spec
    (h : Listed q.suspended.head q.suspended.tail q.suspendedPrev q.suspendedNext m)
    (hdet : q.suspendedPrev a = none ∧ q.suspendedNext a = none) (ha : a ∉ m) :
    ∃ q', q.pushBack a = some q' ∧
      Listed q'.suspended.head q'.suspended.tail q'.suspendedPrev q'.suspendedNext (m ++ [a]) ∧
      (∀ b ∉ m ++ [a], q'.suspendedPrev b = q.suspendedPrev b ∧
        q'.suspendedNext b = q.suspendedNext b) ∧
      q'.treeMem = q.treeMem ∧ Moved a (q.state a) q q' := by
  have hhead : some a ≠ q.suspended.head := by
    rw [h.head]
    exact fun heq => ha (List.mem_of_mem_head? heq.symm)
  have htail : some a ≠ q.suspended.tail := by
    rw [h.tail]
    exact fun heq => ha (List.mem_of_getLast? heq.symm)
  have hself : q.state = Function.update q.state a (q.state a) := (Function.update_eq_self ..).symm
  have hprev : ∀ b, b ≠ a →
      Function.update q.suspendedPrev a q.suspended.tail b = q.suspendedPrev b :=
    fun b hba => Function.update_of_ne hba ..
  have hne : ∀ b ∈ m, b ≠ a := by
    rintro b hb rfl
    exact ha hb
  rw [pushBack, if_neg (by simp [hhead, htail]), if_neg (by simp [hdet])]
  cases hlast : q.suspended.tail with
  | none =>
      have hnil : m = [] := List.getLast?_eq_none_iff.mp (h.tail.symm.trans hlast)
      have hhead' : q.suspended.head = none := by rw [h.head, hnil, List.head?_nil]
      refine ⟨((q.setPrev a none).setHead (some a)).setTail (some a), ?_, ?_, fun b hb => ?_, rfl,
        rfl, rfl, hself⟩
      · have htail' : (q.setPrev a none).suspended.tail = none := hlast
        simp only [htail']
      · have happ := h.append (Function.update q.suspendedPrev a none) q.suspendedNext ha
          (fun b hb => by rw [← hlast]; exact hprev b (hne b hb))
          ⟨by rw [Function.update_self, hlast], hdet.2⟩ (fun _ _ _ => rfl)
          fun b hb => by rw [hlast] at hb; cases hb
        rwa [hhead', Option.none_or] at happ
      · have hba : b ≠ a := fun heq => hb (by simp [heq])
        exact ⟨Function.update_of_ne hba .., rfl⟩
  | some c =>
      have hc : c ∈ m := List.mem_of_getLast? (h.tail.symm.trans hlast)
      have hhead' : q.suspended.head ≠ none := by
        rw [h.head, Ne, List.head?_eq_none_iff]
        exact List.ne_nil_of_mem hc
      refine ⟨((q.setPrev a (some c)).setNext c (some a)).setTail (some a), ?_, ?_, fun b hb => ?_,
        rfl, rfl, rfl, hself⟩
      · have htail' : (q.setPrev a (some c)).suspended.tail = some c := hlast
        simp only [htail']
      · have happ := h.append (Function.update q.suspendedPrev a (some c))
          (Function.update q.suspendedNext c (some a)) ha
          (fun b hb => by rw [← hlast]; exact hprev b (hne b hb))
          ⟨by rw [Function.update_self, hlast],
            by rw [Function.update_of_ne (hne c hc).symm]; exact hdet.2⟩
          (fun b hb hbc => Function.update_of_ne (fun heq => hbc (by rw [hlast, heq])) ..)
          fun b hb => by
            obtain rfl : c = b := Option.some.inj (hlast.symm.trans hb)
            exact Function.update_self ..
        rwa [Option.or_of_isSome (Option.isSome_iff_ne_none.mpr hhead')] at happ
      · have hba : b ≠ a := fun heq => hb (by simp [heq])
        have hbc : b ≠ c := fun heq => hb (by simp [heq, hc])
        exact ⟨Function.update_of_ne hba .., Function.update_of_ne hbc ..⟩

lemma skipForward_spec {prev : Ptr} (next : Ptr) (hhead : prev = none → q.suspended.head = some a) :
    ∃ q', q.skipForward a prev next = some q' ∧
      q'.suspended = ⟨if prev = none then next else q.suspended.head, q.suspended.tail⟩ ∧
      (∀ b, prev = some b → q'.suspendedNext b = next) ∧
      (∀ b, prev ≠ some b → q'.suspendedNext b = q.suspendedNext b) ∧
      q'.suspendedPrev = q.suspendedPrev ∧ q'.treeMem = q.treeMem ∧ q'.entity = q.entity ∧
      q'.kind = q.kind ∧ q'.state = q.state := by
  cases prev with
  | none =>
      refine ⟨q.setHead next, if_pos (hhead rfl), rfl, fun b hb => ?_, fun b _ => rfl, rfl, rfl,
        rfl, rfl, rfl⟩
      cases hb
  | some c =>
      refine ⟨q.setNext c next, rfl, rfl, fun b hb => ?_, fun b hb => ?_, rfl, rfl, rfl, rfl, rfl⟩
      · obtain rfl : c = b := Option.some.inj hb
        exact Function.update_self ..
      · exact Function.update_of_ne (fun heq => hb (by rw [heq])) ..

lemma skipBack_spec {next : Ptr} (prev : Ptr) (htail : next = none → q.suspended.tail = some a) :
    ∃ q', q.skipBack a prev next = some q' ∧
      q'.suspended = ⟨q.suspended.head, if next = none then prev else q.suspended.tail⟩ ∧
      (∀ b, next = some b → q'.suspendedPrev b = prev) ∧
      (∀ b, next ≠ some b → q'.suspendedPrev b = q.suspendedPrev b) ∧
      q'.suspendedNext = q.suspendedNext ∧ q'.treeMem = q.treeMem ∧ q'.entity = q.entity ∧
      q'.kind = q.kind ∧ q'.state = q.state := by
  cases next with
  | none =>
      refine ⟨q.setTail prev, if_pos (htail rfl), rfl, fun b hb => ?_, fun b _ => rfl, rfl, rfl,
        rfl, rfl, rfl⟩
      cases hb
  | some c =>
      refine ⟨q.setPrev c prev, rfl, rfl, fun b hb => ?_, fun b hb => ?_, rfl, rfl, rfl, rfl, rfl⟩
      · obtain rfl : c = b := Option.some.inj hb
        exact Function.update_self ..
      · exact Function.update_of_ne (fun heq => hb (by rw [heq])) ..

/-- An element of the list is taken out, wherever it is. -/
lemma removeSuspended_spec
    (h : Listed q.suspended.head q.suspended.tail q.suspendedPrev q.suspendedNext m)
    (ha : a ∈ m) :
    ∃ q', q.removeSuspended a = some q' ∧
      Listed q'.suspended.head q'.suspended.tail q'.suspendedPrev q'.suspendedNext (m.erase a) ∧
      (q'.suspendedPrev a = none ∧ q'.suspendedNext a = none) ∧
      (∀ b ∉ m, q'.suspendedPrev b = q.suspendedPrev b ∧
        q'.suspendedNext b = q.suspendedNext b) ∧
      q'.treeMem = q.treeMem ∧ Moved a (q.state a) q q' := by
  obtain ⟨m₁, m₂, rfl⟩ := List.append_of_mem ha
  obtain ⟨hprev, hnext⟩ := h.split
  have ha₁ : a ∉ m₁ := fun ha₁ =>
    (List.nodup_append.mp h.nodup).2.2 a ha₁ a List.mem_cons_self rfl
  have ha₂ : a ∉ m₂ := (List.nodup_cons.mp (List.nodup_append.mp h.nodup).2.1).1
  have herase : (m₁ ++ a :: m₂).erase a = m₁ ++ m₂ := by
    rw [List.erase_append_right _ ha₁, List.erase_cons_head]
  have hin : ∀ b ∈ m₁ ++ m₂, b ≠ a := by
    rintro b hb rfl
    rcases List.mem_append.mp hb with hb | hb
    · exact ha₁ hb
    · exact ha₂ hb
  -- the first element is the head, the last one the tail
  have hhead : q.suspendedPrev a = none → q.suspended.head = some a := by
    intro hnone
    rw [hprev, List.getLast?_eq_none_iff] at hnone
    rw [h.head, hnone, List.nil_append, List.head?_cons]
  have htail : q.suspendedNext a = none → q.suspended.tail = some a := by
    intro hnone
    rw [hnext, List.head?_eq_none_iff] at hnone
    rw [h.tail, hnone, List.getLast?_concat]
  obtain ⟨q₁, hrun₁, hlist₁, hto₁, hkeep₁, hprev₁, htree₁, hent₁, hkind₁, hstate₁⟩ :=
    skipForward_spec (q.suspendedNext a) hhead
  have htail₁ : q.suspendedNext a = none → q₁.suspended.tail = some a := by
    rw [hlist₁]
    exact htail
  obtain ⟨q₂, hrun₂, hlist₂, hto₂, hkeep₂, hnext₂, htree₂, hent₂, hkind₂, hstate₂⟩ :=
    skipBack_spec (q.suspendedPrev a) htail₁
  have hself : q.state = Function.update q.state a (q.state a) := (Function.update_eq_self ..).symm
  refine ⟨(q₂.setPrev a none).setNext a none, ?_, ?_, ⟨?_, ?_⟩, fun b hb => ⟨?_, ?_⟩, ?_, ?_, ?_,
    ?_⟩
  · rw [removeSuspended]
    simp only [hrun₁, hrun₂, Option.bind_eq_bind, Option.bind_some]
  · have hremove := h.remove (Function.update q₂.suspendedPrev a none)
      (Function.update q₂.suspendedNext a none)
      (fun b hb hne => by
        rw [Function.update_of_ne (hin b hb), hkeep₂ b hne, hprev₁])
      (fun b hb hne => by
        rw [Function.update_of_ne (hin b hb), hnext₂, hkeep₁ b hne])
      (fun b hb => by
        have hb' : b ∈ m₁ ++ m₂ :=
          List.mem_append_right _ (List.mem_of_mem_head? (hnext.symm.trans hb))
        rw [Function.update_of_ne (hin b hb'), hto₂ b hb])
      (fun b hb => by
        have hb' : b ∈ m₁ ++ m₂ :=
          List.mem_append_left _ (List.mem_of_getLast? (hprev.symm.trans hb))
        rw [Function.update_of_ne (hin b hb'), hnext₂, hto₁ b hb])
    rw [herase]
    have hends : q₂.suspended = ⟨if q.suspendedPrev a = none then q.suspendedNext a
        else q.suspended.head, if q.suspendedNext a = none then q.suspendedPrev a
        else q.suspended.tail⟩ := by
      rw [hlist₂, hlist₁]
    have hends' : ((q₂.setPrev a none).setNext a none).suspended = q₂.suspended := rfl
    rw [hends', hends]
    exact hremove
  · exact Function.update_self ..
  · exact Function.update_self ..
  · have hba : b ≠ a := fun heq => hb (by simp [heq])
    have hbn : q.suspendedNext a ≠ some b := fun heq =>
      hb (by simp [List.mem_of_mem_head? (hnext.symm.trans heq)])
    have hb₂ : q₂.suspendedPrev b = q.suspendedPrev b := by rw [hkeep₂ b hbn, hprev₁]
    exact (Function.update_of_ne hba ..).trans hb₂
  · have hba : b ≠ a := fun heq => hb (by simp [heq])
    have hbp : q.suspendedPrev a ≠ some b := fun heq =>
      hb (by simp [List.mem_of_getLast? (hprev.symm.trans heq)])
    have hb₂ : q₂.suspendedNext b = q.suspendedNext b := by rw [hnext₂, hkeep₁ b hbp]
    exact (Function.update_of_ne hba ..).trans hb₂
  · exact htree₂.trans htree₁
  · exact hent₂.trans hent₁
  · exact hkind₂.trans hkind₁
  · exact hstate₂.trans (hstate₁.trans hself)

/-! ### Inserting and removing -/

lemma canTransitionTo_of_unblocked {x y : ThreadState} (h : x.isBlocked = false) :
    x.canTransitionTo y = true := by
  cases x <;> simp_all [ThreadState.isBlocked, ThreadState.canTransitionTo]

/-- The order depends on the keys of the entities only. -/
lemma cmp_congr (h : q'.entity = q.entity) : q'.cmp = q.cmp := by
  unfold cmp
  rw [h]

/-- The order is that of the wake-up times first. -/
lemma wakeAt_le_of_lt {b : Addr} (h : q.cmp a b = .lt) :
    (q.entity a).wakeAt ≤ (q.entity b).wakeAt := by
  rw [cmp, compareLex, Ordering.then_eq_lt] at h
  rcases h with hlt | ⟨heq, -⟩
  · exact (Nat.compare_eq_lt.mp hlt).le
  · exact (Nat.compare_eq_eq.mp heq).le

/-- **Specification of `insert_wait_thread`** for a wait without end: the thread goes to the end of
the suspended list. -/
lemma insertWaitThread_forever (h : q.Index l m) (hkind : q.kind a ≠ .idle)
    (hstate : (q.state a).isBlocked = false) (hwake : (q.entity a).wakeAt = u64Max) :
    ∃ q', q.insertWaitThread a = some q' ∧ q'.Index l (m ++ [a]) ∧ Moved a .suspended q q' := by
  obtain ⟨hal, ham⟩ := h.notMem_of_unblocked hstate
  have hset := setState_eq (q := q) (a := a) (x := .suspended) (canTransitionTo_of_unblocked hstate)
  obtain ⟨q', hpush, hlist, hout, htree, hent, hkinds, hstates⟩ := pushBack_spec
    (q := { q with state := Function.update q.state a .suspended }) h.list (h.detached a ham) ham
  have hstates' : q'.state = Function.update q.state a .suspended := by
    rw [hstates]
    simp
  refine ⟨q', ?_, ⟨?_, hlist, fun b hb => ?_, fun b => ?_, fun b => ?_, fun b hb => ?_⟩,
    hent, hkinds, hstates'⟩
  · rw [insertWaitThread, if_neg hkind, if_pos hwake, hset]
    exact hpush
  · rw [htree, cmp_congr (q := q) hent]
    exact h.tree
  · obtain ⟨hp, hn⟩ := hout b hb
    have hbm : b ∉ m := fun hbm => hb (List.mem_append_left _ hbm)
    exact ⟨hp.trans (h.detached b hbm).1, hn.trans (h.detached b hbm).2⟩
  · rw [hstates', h.waiting]
    by_cases hba : b = a
    · rw [hba, Function.update_self]
      rw [h.waiting] at hal
      exact ⟨fun hw => absurd hw hal, fun hw => by cases hw⟩
    · rw [Function.update_of_ne hba]
  · rw [hstates', List.mem_append, List.mem_singleton, h.suspended]
    by_cases hba : b = a
    · simp [hba]
    · simp [hba]
  · rw [hkinds]
    by_cases hba : b = a
    · rw [hba]
      exact hkind
    · rw [hstates', Function.update_of_ne hba] at hb
      exact h.kind b hb

/-- **Specification of `insert_wait_thread`** for a wait that ends: the thread goes to its place in
the timeout tree. -/
lemma insertWaitThread_until (h : q.Index l m) (hkind : q.kind a ≠ .idle)
    (hstate : (q.state a).isBlocked = false) (hwake : (q.entity a).wakeAt ≠ u64Max) :
    ∃ q', q.insertWaitThread a = some q' ∧ q'.Index (ordInsert q.cmp a l) m ∧
      Moved a .waiting q q' := by
  obtain ⟨hal, ham⟩ := h.notMem_of_unblocked hstate
  have hset := setState_eq (q := q) (a := a) (x := .waiting) (canTransitionTo_of_unblocked hstate)
  have hcont : q.treeMem.contains a = some false := by
    rw [h.tree.contains, decide_eq_false hal]
  have hreset : (TreeMem.mk q.tree (Function.update q.heap a RbNode.new)).Wf q.cmp l := by
    refine h.tree.congr rfl (fun b hb => Function.update_of_ne ?_ ..) fun _ _ _ _ => rfl
    rintro rfl
    exact hal hb
  obtain ⟨s, hins, hs, -⟩ := TreeMem.insert_spec hreset hal
  refine ⟨{ q with
      tree := s.toRBTree
      heap := s.heap
      state := Function.update q.state a .waiting }, ?_,
    ⟨hs, h.list, h.detached, fun b => ?_, fun b => ?_, fun b hb => ?_⟩, rfl, rfl, rfl⟩
  · have hrun : ({ q with
        heap := Function.update q.heap a RbNode.new
        state := Function.update q.state a .waiting } : WaitMem).treeMem.insert q.cmp a =
        some s := hins
    have hcont' : ({ q with
        state := Function.update q.state a .waiting } : WaitMem).treeMem.contains a = some false :=
      hcont
    rw [insertWaitThread, if_neg hkind, if_neg hwake, hset]
    simp only [Option.bind_eq_bind, Option.bind_some, hcont', Bool.false_eq_true, if_false]
    exact congrArg (Option.bind · _) hrun
  · rw [mem_ordInsert, h.waiting]
    by_cases hba : b = a
    · simp [hba]
    · simp [hba]
  · rw [h.suspended]
    by_cases hba : b = a
    · rw [h.suspended] at ham
      simp [hba, ham]
    · simp [hba]
  · by_cases hba : b = a
    · rw [hba]
      exact hkind
    · refine h.kind b ?_
      simpa [hba] using hb

/-- A thread that has left both sequences becomes ready. -/
lemma Index.setReady (h : q.Index l m) {r : WaitMem} (htree : r.treeMem.Wf r.cmp (l.erase a))
    (hlist : Listed r.suspended.head r.suspended.tail r.suspendedPrev r.suspendedNext (m.erase a))
    (hdet : ∀ b ∉ m.erase a, r.suspendedPrev b = none ∧ r.suspendedNext b = none)
    (hmoved : Moved a (q.state a) q r) :
    ∃ r', r.setState a .ready = some r' ∧ r'.Index (l.erase a) (m.erase a) ∧
      Moved a .ready q r' := by
  have hstate₁ : r.state = q.state := by
    rw [hmoved.state]
    exact Function.update_eq_self ..
  have hready : (r.state a).canTransitionTo .ready = true := by cases r.state a <;> rfl
  have hnodup : l.Nodup := Increasing.nodup h.tree.sorted
  refine ⟨_, setState_eq hready, ⟨htree, hlist, hdet, fun b => ?_, fun b => ?_, fun b hb => ?_⟩,
    hmoved.entity, hmoved.kind, ?_⟩
  · rw [hnodup.mem_erase_iff, h.waiting, hstate₁]
    by_cases hba : b = a
    · simp [hba]
    · simp [hba]
  · rw [h.list.nodup.mem_erase_iff, h.suspended, hstate₁]
    by_cases hba : b = a
    · simp [hba]
    · simp [hba]
  · change r.kind b ≠ .idle
    rw [hmoved.kind]
    refine h.kind b ?_
    replace hb : (Function.update r.state a .ready b).isBlocked := hb
    rw [hstate₁] at hb
    by_cases hba : b = a
    · rw [hba, Function.update_self] at hb
      cases hb
    · rwa [Function.update_of_ne hba] at hb
  · rw [← hstate₁]

/-- **Specification of `remove_wait_thread`** and of the transition after it: a blocked thread
leaves the sequence it is in. -/
lemma removeWaitThread_spec (h : q.Index l m) (ha : (q.state a).isBlocked) :
    ∃ q₁ q₂, q.removeWaitThread a = some q₁ ∧ q₁.setState a .ready = some q₂ ∧
      q₂.Index (l.erase a) (m.erase a) ∧ Moved a .ready q q₂ := by
  have hself : q.state = Function.update q.state a (q.state a) := (Function.update_eq_self ..).symm
  rw [removeWaitThread, if_neg (h.kind a ha)]
  by_cases hsusp : q.state a = .suspended
  · have ham : a ∈ m := (h.suspended a).mpr hsusp
    have hal : a ∉ l := fun hal => h.disjoint hal ham
    obtain ⟨q₁, hrun, hlist, hdet, hout, htree, hmoved⟩ := removeSuspended_spec h.list ham
    have htree₁ : q₁.treeMem.Wf q₁.cmp (l.erase a) := by
      rw [htree, cmp_congr hmoved.entity, List.erase_of_not_mem hal]
      exact h.tree
    have hdet₁ : ∀ b ∉ m.erase a, q₁.suspendedPrev b = none ∧ q₁.suspendedNext b = none := by
      intro b hb
      by_cases hba : b = a
      · rw [hba]
        exact hdet
      · have hbm : b ∉ m := fun hbm => hb ((List.mem_erase_of_ne hba).mpr hbm)
        obtain ⟨hp, hn⟩ := hout b hbm
        exact ⟨hp.trans (h.detached b hbm).1, hn.trans (h.detached b hbm).2⟩
    obtain ⟨q₂, hset, h₂⟩ := h.setReady htree₁ hlist hdet₁ hmoved
    exact ⟨q₁, q₂, (if_pos hsusp).trans hrun, hset, h₂⟩
  · have hal : a ∈ l := by
      rw [h.waiting]
      cases hstate : q.state a with
      | waiting => rfl
      | suspended => exact absurd hstate hsusp
      | ready => rw [hstate] at ha; cases ha
      | running => rw [hstate] at ha; cases ha
    have ham : a ∉ m := h.disjoint hal
    obtain ⟨s, hrun, hs, -⟩ := TreeMem.remove_spec h.tree hal
    have herase : m.erase a = m := List.erase_of_not_mem ham
    obtain ⟨q₂, hset, h₂⟩ := h.setReady (a := a) (r := q.setTree s) hs
      (by rw [herase]; exact h.list) (by rw [herase]; exact h.detached) ⟨rfl, rfl, hself⟩
    refine ⟨q.setTree s, q₂, ?_, hset, h₂⟩
    rw [if_neg hsusp, hrun]
    rfl

/-- **Specification of `pop_expired_wait_thread`**: it takes the least thread out of the timeout
tree if that one has expired, and else does nothing. -/
lemma popExpiredWaitThread_spec (h : q.Index l m) (nowTicks : ℕ) :
    (∀ a, l.head? = some a → (q.entity a).wakeAt ≤ nowTicks →
      ∃ q₁ q₂, q.popExpiredWaitThread nowTicks = some (q₁, some a) ∧
        q₁.setState a .ready = some q₂ ∧ q₂.Index (l.erase a) (m.erase a) ∧ Moved a .ready q q₂) ∧
    ((∀ a, l.head? = some a → ¬ (q.entity a).wakeAt ≤ nowTicks) →
      q.popExpiredWaitThread nowTicks = some (q, none)) := by
  have hself : ∀ a, q.state = Function.update q.state a (q.state a) := fun a =>
    (Function.update_eq_self ..).symm
  have hfirst := h.tree.first
  refine ⟨fun a hhead hexp => ?_, fun hnone => ?_⟩
  · have hal : a ∈ l := List.mem_of_mem_head? hhead
    have ham : a ∉ m := h.disjoint hal
    obtain ⟨s, hrun, hs, -⟩ := TreeMem.popFirst_spec h.tree
    have herase : m.erase a = m := List.erase_of_not_mem ham
    have htail : l.tail = l.erase a := by
      cases l with
      | nil => cases hhead
      | cons b l =>
          obtain rfl : b = a := Option.some.inj hhead
          rw [List.tail_cons, List.erase_cons_head]
    rw [htail] at hs
    obtain ⟨q₂, hset, h₂⟩ := h.setReady (a := a) (r := q.setTree s) hs
      (by rw [herase]; exact h.list) (by rw [herase]; exact h.detached) ⟨rfl, rfl, hself a⟩
    refine ⟨q.setTree s, q₂, ?_, hset, h₂⟩
    have hexp' : (q.entity a).isExpiredAt nowTicks = true := decide_eq_true hexp
    rw [hhead] at hrun hfirst
    simp only [popExpiredWaitThread, hfirst, hexp', hrun, Option.bind_eq_bind, Option.bind_some,
      Bool.not_true, Bool.false_eq_true, if_false]
  · cases hhead : l.head? with
    | none =>
        rw [hhead] at hfirst
        simp only [popExpiredWaitThread, hfirst, Option.bind_eq_bind, Option.bind_some]
    | some a =>
        have hexp' : (q.entity a).isExpiredAt nowTicks = false := decide_eq_false (hnone a hhead)
        rw [hhead] at hfirst
        simp only [popExpiredWaitThread, hfirst, hexp', Option.bind_eq_bind, Option.bind_some,
          Bool.not_false, if_true]

/-! ### The traversal -/

/-- The traversal starts with the first thread of the two sequences. -/
lemma nextWaitEntity_none (h : q.Index l m) : q.nextWaitEntity none = some (l ++ m).head? := by
  have hfirst := h.tree.first
  rw [nextWaitEntity, hfirst]
  cases l with
  | nil => simp [h.list.head]
  | cons a l => simp

/-- It goes on from any thread to the next one, from the last one of the tree to the list. -/
lemma nextWaitEntity_some (h : q.Index l m) (hv : l ++ m = v₁ ++ a :: v₂) :
    q.nextWaitEntity (some a) = some v₂.head? := by
  have hnodup := h.nodup
  rcases List.append_eq_append_iff.mp hv with ⟨w, hw₁, hw₂⟩ | ⟨w, hw₁, hw₂⟩
  · -- the cursor is in the list
    have ham : a ∈ m := by rw [hw₂]; simp
    have hsusp : q.state a = .suspended := (h.suspended a).mp ham
    have hlist := h.list
    rw [hw₂] at hlist
    rw [nextWaitEntity]
    simp only [hsusp, if_true, hlist.split.2]
  · cases w with
    | nil =>
        -- the cursor is the first one of the list
        rw [List.nil_append] at hw₂
        have ham : a ∈ m := by
          rw [← hw₂]
          simp
        have hsusp : q.state a = .suspended := (h.suspended a).mp ham
        have hlist := h.list
        rw [← hw₂, ← List.nil_append (a :: v₂)] at hlist
        rw [nextWaitEntity]
        simp only [hsusp, if_true]
        exact congrArg some hlist.split.2
    | cons b w =>
        obtain ⟨rfl, hv₂⟩ : a = b ∧ v₂ = w ++ m := by simpa using hw₂
        have hal : a ∈ l := by rw [hw₁]; simp
        have hwait : q.state a = .waiting := (h.waiting a).mp hal
        have hnext := h.tree.next hw₁
        rw [nextWaitEntity]
        simp only [hwait, reduceCtorEq, if_false, hnext, Option.bind_eq_bind, Option.bind_some, hv₂]
        cases w with
        | nil => simp [h.list.head]
        | cons c w => simp

/-- From any thread on, the rest of the two sequences is visited. -/
lemma traverseFrom_spec {fuel : ℕ} (h : q.Index l m) (hv : l ++ m = v₁ ++ v₂)
    (hfuel : v₂.length ≤ fuel) : q.traverseFrom fuel v₂.head? = some v₂ := by
  induction v₂ generalizing v₁ fuel with
  | nil => cases fuel <;> rfl
  | cons a v₂ ih =>
      simp only [List.length_cons] at hfuel
      obtain ⟨fuel, rfl⟩ : ∃ n, fuel = n + 1 := ⟨fuel - 1, by omega⟩
      have hnext := nextWaitEntity_some h hv
      have hrest := ih (by simp [hv] : l ++ m = (v₁ ++ [a]) ++ v₂) (by omega : v₂.length ≤ fuel)
      simp only [List.head?_cons, traverseFrom, hnext, hrest, Option.bind_eq_bind, Option.bind_some]

/-- **The traversal** visits the threads of the tree in their order and then those of the list. -/
lemma traverse_spec {fuel : ℕ} (h : q.Index l m) (hfuel : (l ++ m).length ≤ fuel) :
    q.traverseWaitQueueFn fuel = some (l ++ m) := by
  rw [traverseWaitQueueFn, nextWaitEntity_none h]
  exact traverseFrom_spec h (List.nil_append _).symm hfuel

/-! ### The wait queue of the scheduler -/

/-- The memory holds the two sequences of the wait queue, the wait entities and the states. -/
structure Represents (q : WaitMem) (s : Sched) : Prop where
  index : q.Index s.waitq.tree s.waitq.suspended
  entity : q.entity = s.waitq.entity
  kind : q.kind = s.kind
  state : q.state = s.state

/-- `Sched.insertWaitThread` is what `insert_wait_thread` does. -/
theorem insertWaitThread_refines {s : Sched} {t : Tid} (h : q.Represents s)
    (hkind : s.kind t ≠ .idle) (hstate : (s.state t).isBlocked = false) :
    ∃ q' s', q.insertWaitThread t = some q' ∧ s.insertWaitThread t = .ok s' ∧
      q'.Represents s' := by
  have hkind' : q.kind t ≠ .idle := by rwa [h.kind]
  have hstate' : (q.state t).isBlocked = false := by rwa [h.state]
  obtain ⟨htree, hsusp⟩ := h.index.notMem_of_unblocked hstate'
  have hcan : ∀ x, (s.state t).canTransitionTo x = true := fun x =>
    canTransitionTo_of_unblocked hstate
  by_cases hwake : (s.waitq.entity t).wakeAt = u64Max
  · obtain ⟨q', hrun, hindex, hmoved⟩ :=
      insertWaitThread_forever h.index hkind' hstate' (by rwa [h.entity])
    refine ⟨q', { s with
      state := Function.update s.state t .suspended
      waitq := { s.waitq with suspended := s.waitq.suspended ++ [t] } }, hrun, ?_,
      hindex, hmoved.entity.trans h.entity, hmoved.kind.trans h.kind, ?_⟩
    · rw [Sched.insertWaitThread, if_neg hkind, if_pos hwake, Sched.setState, if_pos (hcan _)]
      exact if_neg hsusp
    · rw [hmoved.state, h.state]
  · obtain ⟨q', hrun, hindex, hmoved⟩ :=
      insertWaitThread_until h.index hkind' hstate' (by rwa [h.entity])
    have hcmp : q.cmp = s.waitq.cmp := by
      unfold cmp WaitQueue.cmp
      rw [h.entity]
    rw [hcmp] at hindex
    refine ⟨q', { s with
      state := Function.update s.state t .waiting
      waitq := { s.waitq with tree := ordInsert s.waitq.cmp t s.waitq.tree } }, hrun, ?_,
      hindex, hmoved.entity.trans h.entity, hmoved.kind.trans h.kind, ?_⟩
    · rw [Sched.insertWaitThread, if_neg hkind, if_neg hwake, Sched.setState, if_pos (hcan _)]
      simp only [Outcome.ok_bind, link_of_notMem htree]
    · rw [hmoved.state, h.state]

/-- `Sched.removeWaitThread` is what `remove_wait_thread` does, up to the transition after it. -/
theorem removeWaitThread_refines {s : Sched} {t : Tid} (h : q.Represents s)
    (hstate : (s.state t).isBlocked) :
    ∃ q₁ q₂ s₁ s₂, q.removeWaitThread t = some q₁ ∧ q₁.setState t .ready = some q₂ ∧
      s.removeWaitThread t = .ok s₁ ∧ s₁.setState t .ready = .ok s₂ ∧ q₂.Represents s₂ := by
  have hstate' : (q.state t).isBlocked := by rwa [h.state]
  have hkind : s.kind t ≠ .idle := by
    rw [← h.kind]
    exact h.index.kind t hstate'
  have hready : (s.state t).canTransitionTo .ready = true := by cases s.state t <;> rfl
  obtain ⟨q₁, q₂, hrun, hset, hindex, hmoved⟩ := removeWaitThread_spec h.index hstate'
  by_cases hsusp : s.state t = .suspended
  · have ham : t ∈ s.waitq.suspended := by rwa [h.index.suspended, h.state]
    have hal : t ∉ s.waitq.tree := fun hal => h.index.disjoint hal ham
    rw [List.erase_of_not_mem hal] at hindex
    refine ⟨q₁, q₂, { s with
      waitq := { s.waitq with suspended := s.waitq.suspended.erase t } }, _, hrun, hset, ?_,
      if_pos hready, hindex, hmoved.entity.trans h.entity, hmoved.kind.trans h.kind, ?_⟩
    · rw [Sched.removeWaitThread, if_neg hkind, if_pos hsusp, unlink_of_mem ham, Outcome.ok_bind]
    · rw [hmoved.state, h.state]
  · have hal : t ∈ s.waitq.tree := by
      have hmem := (h.index.mem_iff t).mpr hstate'
      rw [List.mem_append, h.index.suspended, h.state] at hmem
      exact hmem.resolve_right hsusp
    have ham : t ∉ s.waitq.suspended := h.index.disjoint hal
    rw [List.erase_of_not_mem ham] at hindex
    refine ⟨q₁, q₂, { s with waitq := { s.waitq with tree := s.waitq.tree.erase t } }, _, hrun,
      hset, ?_, if_pos hready, hindex, hmoved.entity.trans h.entity, hmoved.kind.trans h.kind, ?_⟩
    · rw [Sched.removeWaitThread, if_neg hkind, if_neg hsusp, unlink_of_mem hal, Outcome.ok_bind]
    · rw [hmoved.state, h.state]

/-- The pop of `Sched.wakeWaitThread` is what `pop_expired_wait_thread` does, up to the transition
after it: the first sleeper is taken out of the tree if its time has come, and else nothing is. -/
theorem popExpiredWaitThread_refines {s : Sched} (h : q.Represents s) (nowTicks : ℕ) :
    (∀ t l, s.waitq.tree = t :: l → (s.waitq.entity t).wakeAt ≤ nowTicks →
      ∃ q₁ q₂ s₂, q.popExpiredWaitThread nowTicks = some (q₁, some t) ∧
        q₁.setState t .ready = some q₂ ∧
        Sched.setState { s with waitq := { s.waitq with tree := l } } t .ready = .ok s₂ ∧
        q₂.Represents s₂) ∧
    ((∀ t ∈ s.waitq.tree.head?, nowTicks < (s.waitq.entity t).wakeAt) →
      q.popExpiredWaitThread nowTicks = some (q, none)) := by
  have hspec := popExpiredWaitThread_spec h.index nowTicks
  rw [h.entity] at hspec
  refine ⟨fun t l htree hwake => ?_, fun hlate => ?_⟩
  · have hready : (s.state t).canTransitionTo .ready = true := by cases s.state t <;> rfl
    obtain ⟨q₁, q₂, hrun, hset, hindex, hmoved⟩ := hspec.1 t (by rw [htree]; rfl) hwake
    have ham : t ∉ s.waitq.suspended := h.index.disjoint (by simp [htree])
    rw [htree, List.erase_cons_head, List.erase_of_not_mem ham] at hindex
    refine ⟨q₁, q₂, _, hrun, hset, if_pos hready, hindex, hmoved.entity.trans h.entity,
      hmoved.kind.trans h.kind, ?_⟩
    rw [hmoved.state, h.state]
  · exact hspec.2 fun t ht => not_le.mpr (hlate t ht)

end WaitMem

end Rtsched

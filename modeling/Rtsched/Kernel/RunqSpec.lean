import Rtsched.Kernel.Runq

/-!
What the functions on the CFS run queue do to its order and its members.

* `RunQueue.Ordered r`: the queue is ordered by virtual runtime.
* `RunQueue.Gains t r r'`: the thread `t` has joined an ordered queue; `RunQueue.Joins t r r'`: it
  has done so with the virtual runtime of the first thread.
-/

namespace Rtsched

open Ordered Outcome

lemma cfsVruntimeDelta_ends {elapsedTicks priority prioritySum : ℕ} :
    Ends (· = .arithmetic) (cfsVruntimeDelta elapsedTicks priority prioritySum) fun _ => True := by
  unfold cfsVruntimeDelta
  split
  · rfl
  · split
    · trivial
    · split
      · rfl
      · trivial

lemma cfsSchedTicksFromVruntime_ends {vruntime priority prioritySum : ℕ} :
    Ends (· = .arithmetic) (cfsSchedTicksFromVruntime vruntime priority prioritySum)
      fun _ => True := by
  unfold cfsSchedTicksFromVruntime
  split
  · rfl
  · split
    · trivial
    · split
      · rfl
      · trivial

namespace RunQueue

variable {r r' : RunQueue} {t u : Tid}

/-- The queue is ordered by virtual runtime. -/
def Ordered (r : RunQueue) : Prop := Increasing r.cmp r.tree

/-- The queue without a thread that blocks. -/
def leave (r : RunQueue) (t : Tid) : RunQueue :=
  { r.dropPriority t with tree := r.tree.erase t }

/-- The thread `t` has joined an ordered queue. -/
structure Gains (t : Tid) (r r' : RunQueue) : Prop where
  ordered : r'.Ordered
  mem : ∀ u, u ∈ r'.tree ↔ u ∈ r.tree ∨ u = t

/-- The thread `t` has been inserted; its entity and the others are as before. -/
structure Inserts (t : Tid) (r r' : RunQueue) : Prop extends Gains t r r' where
  entity : r'.entity = r.entity
  prioritySum : r'.prioritySum = r.prioritySum

/-- The virtual runtime with which a thread joins the queue: that of the first queued thread, or its
own if the queue is empty. -/
def joinVruntime (r : RunQueue) (t : Tid) : ℕ := (r.entity (r.tree.head?.getD t)).vruntime

/-- The thread `t` has joined an ordered queue with the virtual runtime of its first thread. -/
structure Joins (t : Tid) (r r' : RunQueue) : Prop extends Gains t r r' where
  priority : ∀ u, (r'.entity u).priority = (r.entity u).priority
  vruntime : ∀ u, (r'.entity u).vruntime =
    if u = t then r.joinVruntime t else (r.entity u).vruntime

lemma setEntity_self (r : RunQueue) (t : Tid) (e : SchedEntity) : (r.setEntity t e).entity t = e :=
  Function.update_self ..

lemma setEntity_of_ne (r : RunQueue) (hut : u ≠ t) (e : SchedEntity) :
    (r.setEntity t e).entity u = r.entity u := Function.update_of_ne hut ..

/-- The order is that of the virtual runtimes of the members. -/
lemma Ordered.congr (h : r.Ordered) (htree : r'.tree = r.tree)
    (hkey : ∀ u ∈ r.tree, (r'.entity u).vruntime = (r.entity u).vruntime) : r'.Ordered := by
  rw [Ordered, htree]
  refine Increasing.congr h fun u hu v hv => ?_
  simp only [cmp, keyCmp, compareLex, compareOn, hkey u hu, hkey v hv]

/-- The order is that of the virtual runtimes first. -/
lemma vruntime_le_of_lt (h : r.cmp t u = .lt) :
    (r.entity t).vruntime ≤ (r.entity u).vruntime := by
  rw [cmp, keyCmp_eq_lt] at h
  rcases h with hlt | ⟨heq, -⟩
  · exact (Nat.compare_eq_lt.mp hlt).le
  · exact (Nat.compare_eq_eq.mp heq).le

/-- A change to a thread that is not queued. -/
lemma Ordered.setEntity (h : r.Ordered) (ht : t ∉ r.tree) (e : SchedEntity) :
    (r.setEntity t e).Ordered := by
  refine h.congr rfl fun u hu => congrArg SchedEntity.vruntime (Function.update_of_ne ?_ ..)
  rintro rfl
  exact ht hu

/-- **Specification of `RBTree::insert` on the run queue.** -/
lemma insert_spec (h : r.Ordered) (ht : t ∉ r.tree) :
    ∃ r', r.insert t = .ok r' ∧ Inserts t r r' := by
  refine ⟨{ r with tree := ordInsert r.cmp t r.tree }, ?_, ⟨?_, ?_⟩, rfl, rfl⟩
  · rw [insert, link_of_notMem ht, ok_bind]
  · exact Increasing.ordInsert h ht
  · intro u
    simp [or_comm]

/-- **Specification of `RBTree::remove` on the run queue.** -/
lemma remove_spec (h : r.Ordered) (ht : t ∈ r.tree) :
    ∃ r', r.remove t = .ok r' ∧ r'.Ordered ∧ ∀ u, u ∈ r'.tree ↔ u ∈ r.tree ∧ u ≠ t := by
  refine ⟨{ r with tree := r.tree.erase t }, ?_, Increasing.erase h t, fun u => ?_⟩
  · rw [remove, unlink_of_mem ht, ok_bind]
  · rw [(Increasing.nodup h).mem_erase_iff, and_comm]

/-- The first thread has the least virtual runtime. -/
lemma Ordered.head_le (h : r.Ordered) (ht : r.tree.head? = some t) (hu : u ∈ r.tree) :
    (r.entity t).vruntime ≤ (r.entity u).vruntime := by
  by_cases hut : u = t
  · rw [hut]
  · exact vruntime_le_of_lt (h.head_lt ht hu hut)

/-- The virtual runtime of a joining thread depends on the members and their virtual runtimes. -/
lemma joinVruntime_congr (h : r.Ordered) (h' : r'.Ordered) (hmem : ∀ u, u ∈ r'.tree ↔ u ∈ r.tree)
    (hkey : ∀ u, (r'.entity u).vruntime = (r.entity u).vruntime) :
    r'.joinVruntime t = r.joinVruntime t := by
  unfold joinVruntime
  cases hhead : r.tree.head? with
  | none =>
      have hnil : r'.tree = [] := by
        refine List.eq_nil_iff_forall_not_mem.mpr fun u hu => ?_
        rw [hmem, List.head?_eq_none_iff.mp hhead] at hu
        cases hu
      rw [hnil]
      exact hkey t
  | some l =>
      have hl : l ∈ r'.tree := (hmem l).mpr (List.mem_of_mem_head? hhead)
      cases hhead' : r'.tree.head? with
      | none =>
          rw [List.head?_eq_none_iff.mp hhead'] at hl
          cases hl
      | some l' =>
          -- each of the two first threads is a member of both queues
          have hl' : l' ∈ r.tree := (hmem l').mp (List.mem_of_mem_head? hhead')
          have h₁ := h.head_le hhead hl'
          have h₂ := h'.head_le hhead' hl
          rw [hkey, hkey] at h₂
          change (r'.entity l').vruntime = (r.entity l).vruntime
          rw [hkey]
          omega

/-- `update_from_leftmost` changes the joining thread only. -/
lemma updateFromLeftmost_spec (h : r.Ordered) (ht : t ∉ r.tree) :
    Ends (· = .arithmetic) (r.updateFromLeftmost t) fun r' => r'.Ordered ∧ r'.tree = r.tree ∧
      r'.prioritySum = r.prioritySum ∧
      (∀ u, (r'.entity u).priority = (r.entity u).priority) ∧
      ∀ u, (r'.entity u).vruntime =
        if u = t then r.joinVruntime t else (r.entity u).vruntime := by
  unfold updateFromLeftmost
  split
  · rename_i hhead
    refine ⟨h, rfl, rfl, fun _ => rfl, fun u => ?_⟩
    split
    · rename_i hut
      rw [hut, joinVruntime, hhead, Option.getD_none]
    · rfl
  · rename_i l hhead
    refine cfsSchedTicksFromVruntime_ends.bind fun ticks _ =>
      ⟨h.setEntity ht _, rfl, rfl, fun u => ?_, fun u => ?_⟩
    · by_cases hut : u = t
      · rw [hut, setEntity_self]
      · rw [setEntity_of_ne _ hut]
    · by_cases hut : u = t
      · rw [hut, setEntity_self, if_pos rfl, joinVruntime, hhead,
          Option.getD_some]
      · rw [setEntity_of_ne _ hut, if_neg hut]

/-- Joining through `update_from_leftmost`. -/
lemma join_spec (h : r.Ordered) (ht : t ∉ r.tree) :
    Ends (· = .arithmetic) (r.updateFromLeftmost t >>= fun r => r.insert t) fun r' =>
      Joins t r r' ∧ r'.prioritySum = r.prioritySum := by
  refine (updateFromLeftmost_spec h ht).bind fun r₁ ⟨h₁, htree, hsum, hprio, hvrun⟩ => ?_
  obtain ⟨r₂, hins, h₂, hent, hsum₂⟩ := insert_spec h₁ (htree ▸ ht)
  rw [hins]
  refine ⟨⟨⟨h₂.ordered, fun u => by rw [h₂.mem, htree]⟩, ?_, ?_⟩, hsum₂.trans hsum⟩
  · rw [hent]
    exact hprio
  · rw [hent]
    exact hvrun

/-- **Specification of `enqueue_thread`.** -/
lemma enqueueThread_spec (h : r.Ordered) (ht : t ∉ r.tree) :
    Ends (· = .arithmetic) (r.enqueueThread t) fun r' => Joins t r r' ∧
      r'.prioritySum = r.prioritySum + (r.entity t).priority := by
  rw [enqueueThread, if_neg ht]
  refine (updateFromLeftmost_spec h ht).bind fun r₁ ⟨h₁, htree, hsum, hprio, hvrun⟩ => ?_
  obtain ⟨r₂, hins, h₂, hent, hsum₂⟩ := insert_spec h₁ (htree ▸ ht)
  rw [hins, ok_bind]
  split
  · rfl
  · refine ⟨⟨⟨h₂.ordered, fun u => by rw [h₂.mem, htree]⟩, ?_, ?_⟩, ?_⟩
    · change ∀ u, (r₂.entity u).priority = _
      rw [hent]
      exact hprio
    · change ∀ u, (r₂.entity u).vruntime = _
      rw [hent]
      exact hvrun
    · change r₂.prioritySum + (r₂.entity t).priority = _
      rw [hsum₂, hsum, hent, hprio]

/-- The rebuilt queue has the popped threads as members; only the tick counts change. -/
lemma rebuild_spec (popped : List Tid) : ∀ r : RunQueue, r.Ordered → popped.Nodup →
    (∀ u ∈ popped, u ∉ r.tree) → Ends (· = .arithmetic) (rebuild r popped) fun r' =>
      r'.Ordered ∧ (∀ u, u ∈ r'.tree ↔ u ∈ r.tree ∨ u ∈ popped) ∧
      r'.prioritySum = r.prioritySum ∧
      ∀ u, (r'.entity u).priority = (r.entity u).priority ∧
        (r'.entity u).vruntime = (r.entity u).vruntime := by
  induction popped with
  | nil => exact fun r h _ _ => ⟨h, by simp, rfl, fun _ => ⟨rfl, rfl⟩⟩
  | cons t popped ih =>
      intro r h hnodup hnew
      obtain ⟨htpop, hnodup⟩ := List.nodup_cons.mp hnodup
      have ht : t ∉ r.tree := hnew t (by simp)
      refine cfsSchedTicksFromVruntime_ends.bind fun ticks _ => ?_
      refine (Ends.of_exists (insert_spec (h.setEntity ht _) ht)).bind fun r₂ h₂ => ?_
      have hnew₂ : ∀ u ∈ popped, u ∉ r₂.tree := by
        intro u hu hu'
        rcases (h₂.mem u).mp hu' with hu' | rfl
        · exact hnew u (by simp [hu]) hu'
        · exact htpop hu
      have hkeep : ∀ u, (r₂.entity u).priority = (r.entity u).priority ∧
          (r₂.entity u).vruntime = (r.entity u).vruntime := by
        intro u
        rw [h₂.entity]
        by_cases hut : u = t
        · rw [hut, setEntity_self]
          exact ⟨rfl, rfl⟩
        · rw [setEntity_of_ne _ hut]
          exact ⟨rfl, rfl⟩
      refine (ih r₂ h₂.ordered hnodup hnew₂).imp fun r₃ ⟨h₃, hmem, hsum, hkeep₃⟩ =>
        ⟨h₃, fun u => ?_, hsum.trans h₂.prioritySum, fun u => ?_⟩
      · rw [hmem, h₂.mem, List.mem_cons, or_assoc]
        rfl
      · rw [(hkeep₃ u).1, (hkeep₃ u).2]
        exact hkeep u

/-- **Specification of `enqueue_runq_from_waitq`.** -/
lemma enqueueFromWaitq_spec (h : r.Ordered) (ht : t ∉ r.tree) :
    Ends (· = .arithmetic) (r.enqueueFromWaitq t) fun r' => Joins t r r' ∧
      r'.prioritySum = satAdd32 r.prioritySum (r.entity t).priority := by
  rw [enqueueFromWaitq, if_neg ht]
  have hempty : Ordered { r with
      prioritySum := satAdd32 r.prioritySum (r.entity t).priority, tree := [] } :=
    List.Pairwise.nil
  refine (rebuild_spec r.tree _ hempty (Increasing.nodup h) (by simp)).bind
    fun r₁ ⟨h₁, hmem, hsum, hkeep⟩ => ?_
  have hmem₁ : ∀ u, u ∈ r₁.tree ↔ u ∈ r.tree := by simpa using hmem
  have hjoin : r₁.joinVruntime t = r.joinVruntime t :=
    joinVruntime_congr h h₁ hmem₁ fun u => (hkeep u).2
  refine (join_spec h₁ ((hmem₁ t).not.mpr ht)).imp fun r₂ ⟨h₂, hsum₂⟩ => ?_
  refine ⟨⟨⟨h₂.ordered, fun u => by rw [h₂.mem, hmem₁]⟩, fun u => ?_, fun u => ?_⟩,
    hsum₂.trans hsum⟩
  · rw [h₂.priority]
    exact (hkeep u).1
  · rw [h₂.vruntime, hjoin, (hkeep u).2]

/-- The rule for threads that join one after the other: an assertion about the queue and the
threads still to come. -/
lemma foldlM_enqueueFromWaitq {I : RunQueue → List Tid → Prop}
    (hstep : ∀ r r' t ts, r.Ordered → t ∉ r.tree → I r (t :: ts) → Joins t r r' →
      r'.prioritySum = satAdd32 r.prioritySum (r.entity t).priority → I r' ts)
    (ts : List Tid) (hnodup : ts.Nodup) (h : r.Ordered) (hnew : ∀ t ∈ ts, t ∉ r.tree)
    (hI : I r ts) (hrun : ts.foldlM enqueueFromWaitq r = .ok r') : I r' [] := by
  induction ts generalizing r with
  | nil =>
      obtain rfl : r = r' := Except.ok.inj hrun
      exact hI
  | cons t ts ih =>
      obtain ⟨htts, hnodup⟩ := List.nodup_cons.mp hnodup
      have ht : t ∉ r.tree := hnew t (by simp)
      rw [List.foldlM_cons] at hrun
      obtain ⟨r₁, hr₁, hrun⟩ := bind_eq_ok.mp hrun
      obtain ⟨hjoin, hsum⟩ := (enqueueFromWaitq_spec h ht).value hr₁
      refine ih hnodup hjoin.ordered (fun u hu hu' => ?_) (hstep r r₁ t ts h ht hI hjoin hsum) hrun
      rcases (hjoin.mem u).mp hu' with hu' | rfl
      · exact hnew u (by simp [hu]) hu'
      · exact htts hu

/-- The charge changes the running thread only. -/
lemma charge_spec (h : r.Ordered) (ht : t ∉ r.tree) (elapsed : ℕ) :
    Ends (· = .arithmetic) (r.charge t elapsed) fun r' => r'.Ordered ∧ r'.tree = r.tree := by
  unfold charge
  split
  · exact ⟨h, rfl⟩
  · refine cfsVruntimeDelta_ends.bind fun delta _ => ?_
    split
    · rfl
    · exact ⟨h.setEntity ht _, rfl⟩

/-- The charge keeps the priorities and adds to the virtual runtime of the running thread. -/
lemma charge_keeps {elapsed : ℕ} (h : r.charge t elapsed = .ok r') :
    r'.prioritySum = r.prioritySum ∧ (∀ u, (r'.entity u).priority = (r.entity u).priority) ∧
      (∀ u ≠ t, r'.entity u = r.entity u) ∧ (r.entity t).vruntime ≤ (r'.entity t).vruntime := by
  unfold charge at h
  split at h
  · obtain rfl := Except.ok.inj h
    exact ⟨rfl, fun _ => rfl, fun _ _ => rfl, le_rfl⟩
  · obtain ⟨delta, -, h⟩ := bind_eq_ok.mp h
    split at h
    · cases h
    · obtain rfl := Except.ok.inj h
      refine ⟨rfl, fun u => ?_, fun u hu => Function.update_of_ne hu .., ?_⟩
      · by_cases hut : u = t
        · rw [hut, setEntity_self]
        · rw [setEntity_of_ne _ hut]
      · rw [setEntity_self]
        exact Nat.le_add_right ..

end RunQueue

end Rtsched

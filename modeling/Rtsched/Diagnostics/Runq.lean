import Rtsched.RBTree.Run
import Rtsched.Kernel.Rebuild
import Rtsched.Kernel.Requeue
import Rtsched.Kernel.Work
import Rtsched.Lib.Cursor

/-!
The traversal of the CFS threads of `src/diagnostics/runq.rs`.

* `RunqMem.traverse_eq`: if the current thread is not queued, the traversal visits it, if it is a
  CFS thread, and then the run queue in its order.
* `RunqMem.traverse_never`: **if it is queued, the traversal never ends**, since the cursor that
  meets it starts again from the first thread of the queue.
* `Kernel.reachable_traverse`: **which traversals of a run end, and what they have visited.**
* `Kernel.prompt_traverse`: in serialized runs they all end.
-/

namespace Rtsched

open Cursor

namespace RunqMem

/-- `traverse_run_queue`. -/
def traverseRunQueue (q : RunqMem) (current : Option Tid) (currentIsCfs : Bool) :
    Ptr → Option Ptr
  | none =>
      if currentIsCfs ∧ current ≠ none then some current
      else (q.treeMem q.tree).first
  | some thread =>
      if some thread = current then (q.treeMem q.tree).first
      else (q.treeMem q.tree).next (some thread)

/-- `traverse_run_queue_fn`, for at most `fuel` turns of its loop. -/
def traverseRunQueueFn (q : RunqMem) (current : Option Tid) (currentIsCfs : Bool) (fuel : ℕ) :
    Option (List Tid) := do
  let cursor ← q.traverseRunQueue current currentIsCfs none
  visit (fun thread => q.traverseRunQueue current currentIsCfs (some thread)) fuel cursor

variable {q : RunqMem} {l : List Addr} {c : Addr} {current : Option Tid} {currentIsCfs : Bool}
  {fuel : ℕ}

/-- The cursor passes queued threads that are not current in their order. -/
lemma leads_queue (h : q.Holds q.tree l) (l₁ l₂ l₃ : List Addr) (hl : l = l₁ ++ (l₂ ++ l₃))
    (currentIsCfs : Bool) (hcur : ∀ t ∈ l₂, some t ≠ current) :
    Leads (fun thread => q.traverseRunQueue current currentIsCfs (some thread)) (l₂ ++ l₃).head? l₂
      l₃.head? := by
  induction l₂ generalizing l₁ with
  | nil => exact .nil
  | cons a l₂ ih =>
      have hnext : (q.treeMem q.tree).next (some a) = some (l₂ ++ l₃).head? := h.next hl
      have hl' : l = (l₁ ++ [a]) ++ (l₂ ++ l₃) := by
        rw [hl, List.append_assoc, List.cons_append, List.cons_append, List.nil_append]
      have hrest := ih (l₁ ++ [a]) hl' fun t ht => hcur t (List.mem_cons_of_mem a ht)
      refine .cons ?_ hrest
      rw [traverseRunQueue, if_neg (hcur a List.mem_cons_self), hnext]

/-- The whole queue. -/
lemma leads_all (h : q.Holds q.tree l) (hcur : ∀ c, current = some c → c ∉ l) :
    Leads (fun thread => q.traverseRunQueue current currentIsCfs (some thread)) l.head? l none := by
  have hleads := leads_queue h [] l [] (List.append_nil l).symm currentIsCfs
    fun t ht hc => hcur t hc.symm ht
  rwa [List.append_nil] at hleads

/-- **The traversal**: the current thread, if it is a CFS thread, and then the queue. -/
theorem traverse_eq (h : q.Holds q.tree l) (hcur : ∀ c, current = some c → c ∉ l)
    (hfuel : l.length < fuel) : q.traverseRunQueueFn current currentIsCfs fuel =
      some ((if currentIsCfs then current.toList else []) ++ l) := by
  have hfirst : (q.treeMem q.tree).first = some l.head? := h.first
  rw [traverseRunQueueFn]
  by_cases hcfs : currentIsCfs ∧ current ≠ none
  · obtain ⟨rfl, hsome⟩ := hcfs
    obtain ⟨c, rfl⟩ := Option.ne_none_iff_exists'.mp hsome
    -- from the current thread the cursor goes to the first one of the queue
    have hleads : Leads (fun thread => q.traverseRunQueue (some c) true (some thread)) (some c)
        (c :: l) none := .cons (by rw [traverseRunQueue, if_pos rfl, hfirst]) (leads_all h hcur)
    rw [traverseRunQueue, if_pos ⟨rfl, Option.some_ne_none c⟩]
    exact visit_of_leads hleads hfuel
  · have hvisited : (if currentIsCfs then current.toList else []) = [] := by
      cases currentIsCfs with
      | false => rfl
      | true =>
          have hnone : current = none := not_not.mp fun hne => hcfs ⟨rfl, hne⟩
          rw [hnone]
          rfl
    rw [traverseRunQueue, if_neg hcfs, hfirst, hvisited]
    exact visit_of_leads (leads_all h hcur) hfuel.le

/-- What a traversal has visited when it ends. -/
lemma traverse_unique {fuel' : ℕ} {r r' : List Tid}
    (h : q.traverseRunQueueFn current currentIsCfs fuel = some r)
    (h' : q.traverseRunQueueFn current currentIsCfs fuel' = some r') : r = r' := by
  obtain ⟨p, hp, hvisit⟩ := Option.bind_eq_some_iff.mp h
  obtain ⟨p', hp', hvisit'⟩ := Option.bind_eq_some_iff.mp h'
  rw [hp] at hp'
  obtain rfl := Option.some.inj hp'
  exact visit_unique hvisit hvisit'

/-- **A traversal that meets the current thread in the queue never ends.** -/
theorem traverse_never (h : q.Holds q.tree l) (hc : c ∈ l) :
    q.traverseRunQueueFn (some c) currentIsCfs fuel = none := by
  have hfirst : (q.treeMem q.tree).first = some l.head? := h.first
  obtain ⟨l₁, l₂, rfl⟩ := List.append_of_mem hc
  have hnodup : (l₁ ++ c :: l₂).Nodup := Ordered.Increasing.nodup h.sorted
  have hqueue : Leads (fun thread => q.traverseRunQueue (some c) currentIsCfs (some thread))
      (l₁ ++ c :: l₂).head? l₁ (some c) := by
    refine leads_queue h [] l₁ (c :: l₂) rfl currentIsCfs fun t ht heq => ?_
    obtain rfl := Option.some.inj heq
    exact (List.nodup_append.mp hnodup).2.2 t ht t List.mem_cons_self rfl
  have hcycle : Leads (fun thread => q.traverseRunQueue (some c) currentIsCfs (some thread))
      (some c) (c :: l₁) (some c) :=
    .cons (by rw [traverseRunQueue, if_pos rfl, hfirst]) hqueue
  rw [traverseRunQueueFn, traverseRunQueue]
  split
  · exact visit_cycle (List.cons_ne_nil c l₁) hcycle
  · rw [hfirst]
    exact visit_of_leads_cycle (List.cons_ne_nil c l₁) hqueue hcycle

end RunqMem

/-! ### The run queue of a run -/

namespace Kernel

variable {α : Type} {k : Kernel α} {q : RunqMem}

/-- The traversal of the run queue in the memory `q`, for the current thread of the kernel. -/
def traverse (k : Kernel α) (q : RunqMem) (fuel : ℕ) : Option (List Tid) :=
  q.traverseRunQueueFn k.sched.current k.sched.currentIsCfs fuel

/-- The current thread, if it is a CFS thread. -/
lemma mem_currentCfs (h : k.sched.Inv) {t : Tid} :
    t ∈ (if k.sched.currentIsCfs then k.sched.current.toList else []) ↔
      k.sched.current = some t ∧ k.sched.kind t = .cfs := by
  cases hc : k.sched.current with
  | none => simp
  | some c =>
      rw [h.isCfs c hc]
      by_cases hkind : k.sched.kind c = .cfs
      · simp only [hkind, decide_true, if_true, Option.toList_some, List.mem_singleton,
          Option.some.injEq]
        exact ⟨fun heq => ⟨heq.symm, heq ▸ hkind⟩, fun heq => heq.1.symm⟩
      · simp only [hkind, decide_false, Bool.false_eq_true, if_false, List.not_mem_nil,
          Option.some.injEq, false_iff, not_and]
        rintro rfl
        exact hkind

/-- **The traversal in every run.**  It ends unless the current thread is a CFS thread that has
been woken before its switch; when it ends it has visited, each exactly once, the CFS threads that
are not blocked and the current thread if it is a CFS thread. -/
theorem reachable_traverse (h : k.Reachable) (hq : q.Holds q.tree k.sched.runq.tree) :
    ((∃ fuel l, k.traverse q fuel = some l) ↔ ∀ c, k.sched.current = some c →
      k.sched.kind c = .cfs → k.sched.state c ≠ .ready) ∧
    ∀ fuel l, k.traverse q fuel = some l → l.Nodup ∧ ∀ t, t ∈ l ↔
      k.sched.kind t = .cfs ∧ ((k.sched.state t).isBlocked = false ∨ k.sched.current = some t) := by
  have hinv := (reachable_inv h).sched
  by_cases hmet : ∃ c, k.sched.current = some c ∧ c ∈ k.sched.runq.tree
  · obtain ⟨c, hc, hmem⟩ := hmet
    have hready := (hinv.ok c).queued.mp hmem
    have hnever : ∀ fuel, k.traverse q fuel = none := fun fuel => by
      rw [traverse, hc]
      exact RunqMem.traverse_never hq hmem
    refine ⟨⟨?_, fun hno => absurd hready.2 (hno c hc hready.1)⟩, ?_⟩
    · rintro ⟨fuel, l, hl⟩
      rw [hnever fuel] at hl
      cases hl
    · intro fuel l hl
      rw [hnever fuel] at hl
      cases hl
  · have hout : ∀ c, k.sched.current = some c → c ∉ k.sched.runq.tree := fun c hc hmem =>
      hmet ⟨c, hc, hmem⟩
    have hends : k.traverse q (k.sched.runq.tree.length + 1) = some
        ((if k.sched.currentIsCfs then k.sched.current.toList else []) ++ k.sched.runq.tree) :=
      RunqMem.traverse_eq hq hout (Nat.lt_succ_self _)
    refine ⟨iff_of_true ⟨_, _, hends⟩ ?_, fun fuel l hl => ?_⟩
    · exact fun c hc hkind hready => hout c hc ((hinv.ok c).queued.mpr ⟨hkind, hready⟩)
    · obtain rfl := RunqMem.traverse_unique hl hends
      refine ⟨List.nodup_append.mpr ⟨?_, Ordered.Increasing.nodup hinv.tidy.runq, ?_⟩, fun t => ?_⟩
      · cases k.sched.currentIsCfs <;> cases k.sched.current <;> simp
      · rintro t ht u hu rfl
        exact hout t ((mem_currentCfs hinv).mp ht).1 hu
      · rw [List.mem_append, mem_currentCfs hinv]
        constructor
        · rintro (⟨hc, hkind⟩ | hmem)
          · exact ⟨hkind, Or.inr hc⟩
          · have hqueued := (hinv.ok t).queued.mp hmem
            refine ⟨hqueued.1, Or.inl ?_⟩
            rw [show k.sched.state t = .ready from hqueued.2]
            rfl
        · rintro ⟨hkind, hawake | hc⟩
          · rcases hinv.awake_iff.mp ⟨hkind, hawake⟩ with hmem | ⟨-, hrun⟩
            · exact Or.inr hmem
            · exact Or.inl ⟨hinv.running t hrun, hkind⟩
          · exact Or.inl ⟨hc, hkind⟩

/-- **The traversal in serialized runs** always ends. -/
theorem prompt_traverse (h : k.PromptReachable) (hq : q.Holds q.tree k.sched.runq.tree) :
    ∃ fuel l, k.traverse q fuel = some l := by
  refine (reachable_traverse h.reachable hq).1.mpr fun c hc _ => ?_
  exact (promptReachable_prompt h).current c hc

/-! ### A memory of the run queue -/

/-- Every increasing sequence is held by a tree. -/
lemma exists_wf (o : EntityOrder) {l : List Addr} (hl : Ordered.Increasing o.cmp l) :
    ∃ s : TreeMem, s.Wf o.cmp l := by
  have := o.trans
  have := o.eq
  induction l with
  | nil =>
      obtain ⟨l, hwf, hmem⟩ := Config.inv_of_start
        (c := ⟨⟨RBTree.new, fun _ => RbNode.new⟩, o, ∅⟩) ⟨rfl, rfl⟩
      obtain rfl : l = [] := List.eq_nil_iff_forall_not_mem.mpr fun a ha =>
        Finset.notMem_empty a ((hmem a).mpr ha)
      exact ⟨_, hwf⟩
  | cons a l ih =>
      obtain ⟨hlt, hl⟩ := List.pairwise_cons.mp hl
      obtain ⟨s, hs⟩ := ih hl
      have ha : a ∉ l := fun hmem => Ordered.cmp_not_lt_self a (hlt a hmem)
      obtain ⟨s', -, hs', -⟩ := TreeMem.insert_spec hs ha
      rw [← List.nil_append l, Ordered.ordInsert_append (by simp) hlt] at hs'
      exact ⟨s', hs'⟩

/-- The memory of a run queue. -/
lemma exists_runqMem {r : RunQueue} (h : r.Ordered) :
    ∃ q : RunqMem, q.entity = r.entity ∧ q.Holds q.tree r.tree := by
  obtain ⟨s, hs⟩ := exists_wf ⟨r.cmp, inferInstance, inferInstance⟩ h
  exact ⟨⟨s.toRBTree, r.prioritySum, s.heap, r.entity, fun _ => .cfs, fun _ => .ready⟩, rfl, hs⟩

/-- The traversal never ends after the current thread has been woken before its switch. -/
theorem reachable_traverse_woken : ∃ k q, wokenTrial = some k ∧
    q.Holds q.tree k.sched.runq.tree ∧ ∀ fuel, k.traverse q fuel = none := by
  have htest : wokenTrial.any (fun k => k.sched.current == some 1 && k.sched.kind 1 == .cfs &&
      k.sched.state 1 == .ready) = true := by decide +kernel
  obtain ⟨k, hk, htest⟩ := (Option.any_eq_true ..).mp htest
  simp only [Bool.and_eq_true, beq_iff_eq] at htest
  obtain ⟨⟨hcur, hkind⟩, hready⟩ := htest
  have hreach : k.Reachable := trial_reachable hk
  obtain ⟨q, -, hq⟩ := exists_runqMem (reachable_inv hreach).sched.tidy.runq
  refine ⟨k, q, hk, hq, fun fuel => ?_⟩
  by_contra hne
  obtain ⟨l, hl⟩ := Option.ne_none_iff_exists'.mp hne
  exact (reachable_traverse hreach hq).1.mp ⟨fuel, l, hl⟩ 1 hcur hkind hready

end Kernel

end Rtsched

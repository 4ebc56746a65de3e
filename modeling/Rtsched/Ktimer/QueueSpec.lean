import Rtsched.Ktimer.Queue
import Rtsched.RBTree.Insert
import Rtsched.RBTree.Remove

/-!
The timer queue keeps two ordered sequences, one per value of the active flag.

* `QueueMem.Wf q L`: the tree of the flag `b` stores the increasing sequence `L b`, whose head is
  the cached minimum.
* `insert_spec`, `remove_spec`: the queue operations on these sequences.
* `first_spec`, `last_spec`, `next_spec`: both sequences are read as one, merged by
  `(expire_at, address)`.
-/

namespace Rtsched

open RedBlack Ordered

namespace QueueMem

instance (q : QueueMem) : Std.TransCmp q.cmp :=
  inferInstanceAs (Std.TransCmp (keyCmp _ _))

instance (q : QueueMem) : Std.LawfulEqCmp q.cmp := lawfulEqCmp_keyCmp _ Function.injective_id

/-- The queue stores the sequence `L b` in the tree of the flag `b`. -/
structure Wf (q : QueueMem) (L : Bool → List Addr) : Prop where
  tree : ∀ b, (q.tree b).Wf q.cmp (L b)
  leftMost : ∀ b, q.leftMost b = (L b).head?
  flag : ∀ b, ∀ a ∈ L b, (q.entity a).active = b

variable {q : QueueMem} {L : Bool → List Addr} {a : Addr} {b : Bool}

/-- The union of the two sequences, in order. -/
def all (q : QueueMem) (L : Bool → List Addr) : List Addr := merged q.cmp (L true) (L false)

namespace Wf

lemma disjoint (h : q.Wf L) (ha : a ∈ L b) : a ∉ L !b := fun ha' => by
  have := (h.flag b a ha).symm.trans (h.flag (!b) a ha')
  cases b <;> simp at this

lemma mem_all (L : Bool → List Addr) : a ∈ q.all L ↔ ∃ b, a ∈ L b := by
  simp [all, or_comm]

lemma increasing_all (h : q.Wf L) : Increasing q.cmp (q.all L) :=
  (h.tree true).sorted.merged (h.tree false).sorted fun _ ha => h.disjoint (b := true) ha

lemma contains_tree (h : q.Wf L) (a : Addr) (b : Bool) :
    (q.tree b).contains a = some (decide (a ∈ L b)) := (h.tree b).contains a

lemma contains (h : q.Wf L) (a : Addr) : q.contains a = some (decide (∃ b, a ∈ L b)) := by
  rw [QueueMem.contains, h.contains_tree a true, h.contains_tree a false]
  by_cases ht : a ∈ L true <;> simp [ht]

end Wf

/-! ### Reading the two trees as one -/

/-- `earlier_of` of the first matches in two disjoint increasing sequences is the first match in
their union. -/
lemma earlierOf_find? {l l' : List Addr} {p : Addr → Bool} (h : Increasing q.cmp l)
    (h' : Increasing q.cmp l') (hdisj : ∀ a ∈ l, a ∉ l') :
    q.earlierOf (l.find? p) (l'.find? p) = (merged q.cmp l l').find? p := by
  have hm := h.merged h' hdisj
  cases hx : l.find? p with
  | none =>
      have hnx := List.find?_eq_none.mp hx
      cases hy : l'.find? p with
      | none =>
          have hny := List.find?_eq_none.mp hy
          refine (List.find?_eq_none.mpr fun c hc => ?_).symm
          rcases mem_merged.mp hc with hc | hc
          · exact hnx c hc
          · exact hny c hc
      | some y =>
          obtain ⟨hy, hpy, hly⟩ := h'.find?_eq_some_iff.mp hy
          refine (hm.find?_eq_some_iff.mpr ⟨mem_merged.mpr (Or.inr hy), hpy, ?_⟩).symm
          intro c hc hpc
          rcases mem_merged.mp hc with hc | hc
          · exact absurd hpc (hnx c hc)
          · exact hly c hc hpc
  | some x =>
      obtain ⟨hx, hpx, hlx⟩ := h.find?_eq_some_iff.mp hx
      cases hy : l'.find? p with
      | none =>
          have hny := List.find?_eq_none.mp hy
          refine (hm.find?_eq_some_iff.mpr ⟨mem_merged.mpr (Or.inl hx), hpx, ?_⟩).symm
          intro c hc hpc
          rcases mem_merged.mp hc with hc | hc
          · exact hlx c hc hpc
          · exact absurd hpc (hny c hc)
      | some y =>
          obtain ⟨hy, hpy, hly⟩ := h'.find?_eq_some_iff.mp hy
          have hne : x ≠ y := by rintro rfl; exact hdisj x hx hy
          by_cases hxy : q.cmp x y = .lt
          · rw [earlierOf, if_pos hxy]
            refine (hm.find?_eq_some_iff.mpr ⟨mem_merged.mpr (Or.inl hx), hpx, ?_⟩).symm
            intro c hc hpc
            rcases mem_merged.mp hc with hc | hc
            · exact hlx c hc hpc
            · rcases hly c hc hpc with rfl | hyc
              · exact Or.inr hxy
              · exact Or.inr (Std.TransCmp.lt_trans hxy hyc)
          · have hyx := (cmp_lt_or_gt hne).resolve_left hxy
            rw [earlierOf, if_neg hxy]
            refine (hm.find?_eq_some_iff.mpr ⟨mem_merged.mpr (Or.inr hy), hpy, ?_⟩).symm
            intro c hc hpc
            rcases mem_merged.mp hc with hc | hc
            · rcases hlx c hc hpc with rfl | hxc
              · exact Or.inr hyx
              · exact Or.inr (Std.TransCmp.lt_trans hyx hxc)
            · exact hly c hc hpc

/-- The order of the two arguments does not matter for disjoint sequences. -/
lemma earlierOf_find?_comm {l l' : List Addr} {p : Addr → Bool} (h : Increasing q.cmp l)
    (h' : Increasing q.cmp l') (hdisj : ∀ a ∈ l, a ∉ l') :
    q.earlierOf (l'.find? p) (l.find? p) = (merged q.cmp l l').find? p := by
  cases hx : l.find? p with
  | none =>
      rw [← earlierOf_find? h h' hdisj, hx]
      cases l'.find? p <;> rfl
  | some x =>
      cases hy : l'.find? p with
      | none => rw [← earlierOf_find? h h' hdisj, hx, hy]; rfl
      | some y =>
          obtain ⟨hx', -, -⟩ := h.find?_eq_some_iff.mp hx
          obtain ⟨hy', -, -⟩ := h'.find?_eq_some_iff.mp hy
          have hne : x ≠ y := by rintro rfl; exact hdisj x hx' hy'
          rw [← earlierOf_find? h h' hdisj, hx, hy, earlierOf, earlierOf]
          have hlt : q.cmp x y = .lt ∨ q.cmp y x = .lt := cmp_lt_or_gt hne
          rcases hlt with hxy | hyx
          · rw [if_neg (cmp_lt_asymm hxy), if_pos hxy]
          · rw [if_pos hyx, if_neg (cmp_lt_asymm hyx)]

lemma find?_true (l : List Addr) : l.find? (fun _ => true) = l.head? := by
  cases l <;> rfl

/-- `first` is the head of the union. -/
lemma first_spec (h : q.Wf L) : q.first = (q.all L).head? := by
  have hf : q.firstActive = (L true).head? := h.leftMost true
  have hg : q.firstInactive = (L false).head? := h.leftMost false
  rw [first, hf, hg, ← find?_true, ← find?_true, ← find?_true, all]
  exact earlierOf_find? (h.tree true).sorted (h.tree false).sorted fun _ ha =>
    h.disjoint (b := true) ha

/-- `last` is the last element of the union. -/
lemma last_spec (h : q.Wf L) : q.last = some (q.all L).getLast? := by
  have hlast : ∀ b, (q.tree b).last = some (L b).getLast? := fun b => (h.tree b).last
  have hmax : ∀ {b x}, (L b).getLast? = some x →
      x ∈ L b ∧ ∀ c ∈ L b, c = x ∨ q.cmp c x = .lt := fun {b x} hx =>
    (h.tree b).sorted.getLast?_eq_some_iff.mp hx
  have hall := h.increasing_all
  simp only [last, hlast, Option.bind_eq_bind, Option.bind_some]
  cases hx : (L true).getLast? with
  | none =>
      have hnil : L true = [] := List.getLast?_eq_none_iff.mp hx
      simp [all, hnil, merged]
  | some x =>
      obtain ⟨hxm, hxmax⟩ := hmax hx
      cases hy : (L false).getLast? with
      | none =>
          have hnil : L false = [] := List.getLast?_eq_none_iff.mp hy
          refine congrArg some (hall.getLast?_eq_some_iff.mpr ⟨?_, fun c hc => ?_⟩).symm
          · exact mem_merged.mpr (Or.inl hxm)
          · rcases mem_merged.mp hc with hc | hc
            · exact hxmax c hc
            · simp [hnil] at hc
      | some y =>
          obtain ⟨hym, hymax⟩ := hmax hy
          have hne : x ≠ y := by rintro rfl; exact h.disjoint hxm hym
          refine congrArg some ?_
          by_cases hxy : q.cmp x y = .gt
          · have hyx : q.cmp y x = .lt := Std.OrientedCmp.gt_iff_lt.mp hxy
            rw [if_pos hxy]
            refine (hall.getLast?_eq_some_iff.mpr
              ⟨mem_merged.mpr (Or.inl hxm), fun c hc => ?_⟩).symm
            rcases mem_merged.mp hc with hc | hc
            · exact hxmax c hc
            · rcases hymax c hc with rfl | hcy
              · exact Or.inr hyx
              · exact Or.inr (Std.TransCmp.lt_trans hcy hyx)
          · have hxy' : q.cmp x y = .lt := (cmp_lt_or_gt hne).resolve_right fun hyx =>
              hxy (Std.OrientedCmp.gt_iff_lt.mpr hyx)
            rw [if_neg hxy]
            refine (hall.getLast?_eq_some_iff.mpr
              ⟨mem_merged.mpr (Or.inr hym), fun c hc => ?_⟩).symm
            rcases mem_merged.mp hc with hc | hc
            · rcases hxmax c hc with rfl | hcx
              · exact Or.inr hxy'
              · exact Or.inr (Std.TransCmp.lt_trans hcx hxy')
            · exact hymax c hc

/-- `next` of a linked timer is the first element of the union above it. -/
lemma next_spec (h : q.Wf L) (ha : a ∈ L b) :
    q.next (some a) = some ((q.all L).find? fun x => q.cmp a x = .lt) := by
  have hown : (q.tree b).next (some a) = some ((L b).find? fun x => q.cmp a x = .lt) := by
    obtain ⟨l₁, l₂, hsplit⟩ := List.append_of_mem ha
    have hsorted := (h.tree b).sorted
    rw [hsplit] at hsorted
    rw [(h.tree b).next hsplit, hsplit, hsorted.find?_lt_append]
  have hother : (q.tree !b).upperBound q.cmp a
      = some ((L !b).find? fun x => q.cmp a x = .lt) := (h.tree !b).upperBound
  simp only [next, h.flag b a ha, hown, hother, Option.bind_eq_bind, Option.bind_some]
  refine congrArg some ?_
  have ht := (h.tree true).sorted
  have hf := (h.tree false).sorted
  have hdisj : ∀ c ∈ L true, c ∉ L false := fun c hc => h.disjoint (b := true) hc
  cases b with
  | true => exact earlierOf_find? ht hf hdisj
  | false => exact earlierOf_find?_comm ht hf hdisj

/-- The timers met from a position on, following `next` until null. -/
def visit (q : QueueMem) : ℕ → Ptr → Option (List Addr)
  | _, none => some []
  | 0, some _ => none
  | fuel + 1, some a => do
      let p ← q.next (some a)
      (a :: ·) <$> visit q fuel p

/-- The walk from any position of the union visits what is left of it. -/
lemma visit_spec (h : q.Wf L) {l₁ l₂ : List Addr} (hl : q.all L = l₁ ++ l₂) :
    q.visit l₂.length l₂.head? = some l₂ := by
  induction l₂ generalizing l₁ with
  | nil => rfl
  | cons a l₂ ih =>
      obtain ⟨b, hb⟩ := (Wf.mem_all L).mp (by rw [hl]; simp : a ∈ q.all L)
      have hsorted := h.increasing_all
      rw [hl] at hsorted
      have hrec := ih (by simp [hl] : q.all L = (l₁ ++ [a]) ++ l₂)
      simp only [List.length_cons, List.head?_cons, visit, next_spec h hb, hl,
        hsorted.find?_lt_append, hrec, Option.bind_eq_bind, Option.bind_some, Option.map_eq_map,
        Option.map_some]

/-! ### Insertion and removal -/

section Projections

variable (q : QueueMem) (b b' : Bool) (s : TreeMem) (p : Ptr) (a : Addr) (e : KTimerEntity)

lemma setTree_tree : (q.setTree b s).tree b = s := by cases b <;> rfl

lemma setTree_tree_not : (q.setTree b s).tree (!b) = ⟨(q.tree !b).toRBTree, s.heap⟩ := by
  cases b <;> rfl

@[simp] lemma setTree_entity : (q.setTree b s).entity = q.entity := by cases b <;> rfl

@[simp] lemma setTree_heap : (q.setTree b s).heap = s.heap := by cases b <;> rfl

@[simp] lemma setTree_leftMost : (q.setTree b s).leftMost b' = q.leftMost b' := by
  cases b <;> rfl

@[simp] lemma setLeftMost_tree : (q.setLeftMost b p).tree b' = q.tree b' := by cases b <;> rfl

@[simp] lemma setLeftMost_entity : (q.setLeftMost b p).entity = q.entity := by cases b <;> rfl

@[simp] lemma setLeftMost_heap : (q.setLeftMost b p).heap = q.heap := by cases b <;> rfl

lemma setLeftMost_leftMost : (q.setLeftMost b p).leftMost b = p := by cases b <;> rfl

lemma setLeftMost_leftMost_not : (q.setLeftMost b p).leftMost (!b) = q.leftMost !b := by
  cases b <;> rfl

@[simp] lemma setEntity_tree : (q.setEntity a e).tree b = q.tree b := rfl

@[simp] lemma setEntity_leftMost : (q.setEntity a e).leftMost b = q.leftMost b := rfl

end Projections

/-- The order depends on the expirations only. -/
lemma cmp_congr {q q' : QueueMem} (h : ∀ a, (q'.entity a).expireAt = (q.entity a).expireAt) :
    q'.cmp = q.cmp := by
  simp only [cmp, h]

/-- The head after an insertion, as the cached minimum is updated. -/
lemma head?_ordInsert (cmp : Addr → Addr → Ordering) (a : Addr) (l : List Addr) :
    (ordInsert cmp a l).head? = match l.head? with
      | none => some a
      | some m => if cmp a m = .lt then some a else some m := by
  cases l with
  | nil => rfl
  | cons m l =>
      simp only [ordInsert, List.orderedInsert, List.head?_cons]
      split <;> rfl

/-- `L` with the sequence of the flag `b` replaced. -/
lemma wf_of_tree {q' : QueueMem} {l : List Addr} (h : q.Wf L)
    (hcmp : q'.cmp = q.cmp) (htree : (q'.tree b).Wf q.cmp l) (hleft : q'.leftMost b = l.head?)
    (hflag : ∀ a ∈ l, (q'.entity a).active = b)
    (htree' : (q'.tree !b).toRBTree = (q.tree !b).toRBTree)
    (hleft' : q'.leftMost (!b) = q.leftMost !b)
    (hheap : ∀ a ∈ L !b, q'.heap a = q.heap a)
    (hent : ∀ a ∈ L !b, (q'.entity a).active = (q.entity a).active) :
    q'.Wf (Function.update L b l) := by
  have hne : (!b) ≠ b := by cases b <;> decide
  have hcases : ∀ b', b' = b ∨ b' = !b := by cases b <;> decide
  refine ⟨fun b' => ?_, fun b' => ?_, fun b' => ?_⟩
  · rcases hcases b' with rfl | rfl
    · rw [Function.update_self, hcmp]
      exact htree
    · rw [Function.update_of_ne hne]
      exact (h.tree !b).congr htree' hheap fun _ _ _ _ => by rw [hcmp]
  · rcases hcases b' with rfl | rfl
    · rw [Function.update_self, hleft]
    · rw [Function.update_of_ne hne, hleft', h.leftMost]
  · rcases hcases b' with rfl | rfl
    · rw [Function.update_self]
      exact hflag
    · rw [Function.update_of_ne hne]
      intro a ha
      rw [hent a ha, h.flag _ a ha]

/-- `insert` puts a detached timer into the sequence of its flag. -/
theorem insert_spec (h : q.Wf L) (ha : ∀ b, a ∉ L b) (b : Bool) :
    ∃ q', q.insert a b = some q'
      ∧ q'.Wf (Function.update L b (ordInsert q.cmp a (L b)))
      ∧ q'.entity = Function.update q.entity a { q.entity a with active := b } := by
  obtain ⟨s, hrun, hs, ho⟩ := TreeMem.insert_spec (h.tree b) (ha b)
  have hcont : q.contains a = some false := by
    rw [h.contains, decide_eq_false (by simpa using ha)]
  set q₁ := (q.setTree b s).setEntity a { q.entity a with active := b } with hq₁
  have hent₁ : q₁.entity = Function.update q.entity a { q.entity a with active := b } := by
    simp [hq₁, setEntity]
  have hcmp₁ : q₁.cmp = q.cmp := cmp_congr fun x => by
    rw [hent₁]
    by_cases hx : x = a
    · rw [hx, Function.update_self]
    · rw [Function.update_of_ne hx]
  have hleft₁ : ∀ b', q₁.leftMost b' = (L b').head? := fun b' => by
    simp [hq₁, h.leftMost]
  -- the cached minimum is updated exactly when the head of the sequence changes
  set p := (ordInsert q.cmp a (L b)).head? with hp
  have hrun' : ∃ q', q.insert a b = some q' ∧ q'.leftMost b = p
      ∧ q'.leftMost (!b) = q₁.leftMost !b ∧ (∀ b', q'.tree b' = q₁.tree b')
      ∧ q'.entity = q₁.entity ∧ q'.heap = q₁.heap := by
    rw [head?_ordInsert] at hp
    cases hl : (L b).head? with
    | none =>
        have hstart : q.insert a b = some (q₁.setLeftMost b (some a)) := by
          simp only [insert, hcont, hrun, Option.bind_eq_bind, Option.bind_some,
            Bool.false_eq_true, if_false, setTree_entity, ← hq₁, hleft₁, hl]
        refine ⟨_, hstart, ?_, setLeftMost_leftMost_not .., by simp, by simp, by simp⟩
        rw [setLeftMost_leftMost, hp, hl]
    | some m =>
        have hstart : q.insert a b =
            some (if q₁.cmp a m = .lt then q₁.setLeftMost b (some a) else q₁) := by
          simp only [insert, hcont, hrun, Option.bind_eq_bind, Option.bind_some,
            Bool.false_eq_true, if_false, setTree_entity, ← hq₁, hleft₁, hl]
        rw [hstart, hcmp₁]
        rw [hl] at hp
        by_cases hlt : q.cmp a m = .lt
        · refine ⟨_, rfl, ?_, ?_, by simp [hlt], by simp [hlt], by simp [hlt]⟩
          · rw [if_pos hlt, setLeftMost_leftMost, hp]
            simp [hlt]
          · rw [if_pos hlt, setLeftMost_leftMost_not]
        · refine ⟨_, rfl, ?_, ?_, by simp [hlt], by simp [hlt], by simp [hlt]⟩
          · rw [if_neg hlt, hleft₁, hp]
            simp [hlt, hl]
          · rw [if_neg hlt]
  obtain ⟨q', hq', hleft, hleft', htree, hent, hheap⟩ := hrun'
  have hcmp : q'.cmp = q.cmp := by
    rw [← hcmp₁]
    exact cmp_congr fun x => by rw [hent]
  have hupd : ∀ x, x ≠ a → q'.entity x = q.entity x := fun x hx => by
    rw [hent, hent₁, Function.update_of_ne hx]
  refine ⟨q', hq', wf_of_tree h hcmp ?_ hleft ?_ ?_ ?_ ?_ ?_, hent.trans hent₁⟩
  · rw [htree, hq₁, setEntity_tree, setTree_tree]
    exact hs
  · intro x hx
    rcases mem_ordInsert.mp hx with rfl | hx'
    · rw [hent, hent₁, Function.update_self]
    · rw [hupd x (by rintro rfl; exact ha b hx'), h.flag b x hx']
  · rw [htree, hq₁, setEntity_tree, setTree_tree_not]
  · rw [hleft', hleft₁, h.leftMost]
  · intro x hx
    have hxa : x ≠ a := by rintro rfl; exact ha _ hx
    have hxb : x ∉ L b := by
      have := h.disjoint hx
      rwa [Bool.not_not] at this
    rw [hheap, hq₁]
    show (q.setTree b s).heap x = q.heap x
    rw [setTree_heap]
    exact ho x hxa hxb
  · intro x hx
    rw [hupd x (by rintro rfl; exact ha _ hx)]

/-- `remove` takes a linked timer out of the sequence of its flag. -/
theorem remove_spec (h : q.Wf L) (ha : a ∈ L b) :
    ∃ q', q.remove (some a) = some (q', some a)
      ∧ q'.Wf (Function.update L b ((L b).erase a)) ∧ q'.entity = q.entity := by
  obtain ⟨s, hrun, hs, -, ho⟩ := TreeMem.remove_spec (h.tree b) ha
  have hflag := h.flag b a ha
  have hnd := (h.tree b).sorted.nodup
  have hnext : some a = (L b).head? → (q.tree b).next (some a) = some (L b).tail.head? := by
    intro hhead
    have hsplit : L b = [] ++ a :: (L b).tail := by
      cases hL : L b with
      | nil => simp [hL] at hhead
      | cons c l => simp only [hL, List.head?_cons, Option.some.injEq] at hhead; rw [hhead]; rfl
    exact (h.tree b).next hsplit
  have hrun' : ∃ q', q.remove (some a) = some (q', some a)
      ∧ q'.leftMost b = ((L b).erase a).head? ∧ q'.leftMost (!b) = q.leftMost !b
      ∧ (∀ b', q'.tree b' = (q.setTree b s).tree b') ∧ q'.entity = q.entity
      ∧ q'.heap = s.heap := by
    by_cases hhead : some a = (L b).head?
    · refine ⟨(q.setTree b s).setLeftMost b (L b).tail.head?, ?_, ?_, ?_, by simp, by simp,
        by simp⟩
      · simp only [remove, hflag, h.leftMost, ← hhead, hnext hhead, hrun, if_true,
          Option.bind_eq_bind, Option.bind_some]
      · rw [setLeftMost_leftMost]
        cases hL : L b with
        | nil => simp [hL] at hhead
        | cons c l =>
            simp only [hL, List.head?_cons, Option.some.injEq] at hhead
            rw [hhead, List.erase_cons_head, List.tail_cons]
      · rw [setLeftMost_leftMost_not, setTree_leftMost]
    · refine ⟨q.setTree b s, ?_, ?_, by simp, by simp, by simp, by simp⟩
      · simp [remove, hflag, h.leftMost, hhead, hrun]
      · rw [setTree_leftMost, h.leftMost]
        cases hL : L b with
        | nil => rfl
        | cons c l =>
            have hca : c ≠ a := by rintro rfl; exact hhead (by simp [hL])
            rw [List.erase_cons_tail (by simpa using hca)]
            rfl
  obtain ⟨q', hq', hleft, hleft', htree, hent, hheap⟩ := hrun'
  have hcmp : q'.cmp = q.cmp := cmp_congr fun x => by rw [hent]
  refine ⟨q', hq', wf_of_tree h hcmp ?_ hleft ?_ ?_ hleft' ?_ ?_, hent⟩
  · rw [htree, setTree_tree]
    exact hs
  · intro x hx
    rw [hent, h.flag b x (List.mem_of_mem_erase hx)]
  · rw [htree, setTree_tree_not]
  · intro x hx
    have hxb : x ∉ L b := by
      have := h.disjoint hx
      rwa [Bool.not_not] at this
    rw [hheap]
    exact ho x hxb
  · intro x _
    rw [hent]

/-- A detached timer may be written to. -/
lemma Wf.setEntity (h : q.Wf L) (ha : ∀ b, a ∉ L b) (e : KTimerEntity) :
    (q.setEntity a e).Wf L := by
  have hne : ∀ {b x}, x ∈ L b → x ≠ a := fun {b x} hx => by rintro rfl; exact ha b hx
  have hent : ∀ {b x}, x ∈ L b → (q.setEntity a e).entity x = q.entity x := fun hx =>
    Function.update_of_ne (hne hx) _ _
  refine ⟨fun b => (h.tree b).congr rfl (fun _ _ => rfl) fun x hx y hy => ?_, h.leftMost,
    fun b x hx => ?_⟩
  · simp only [cmp, keyCmp, compareLex, compareOn, hent hx, hent hy]
  · rw [hent hx, h.flag b x hx]

end QueueMem

end Rtsched

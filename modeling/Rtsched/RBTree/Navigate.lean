import Rtsched.RBTree.Repr

/-!
The read-only operations of `src/rbtree.rs` on a stored tree, against its in-order sequence.

* `first_spec`, `last_spec`: the ends of the sequence.
* `next_spec`: the successor in the sequence, found through the right subtree or by climbing.
* `contains_spec`: membership.
* `upperBound_spec`: the first element the search entity is below, on an ordered tree.
* `Wf.first`, `Wf.last`, `Wf.next`, `Wf.contains`, `Wf.upperBound`, `Wf.walk`: the same for a
  well-formed tree, with the walk along `next` from the first entity to null.

Every loop gets fuel from the number of linked nodes, so each statement includes termination.
-/

namespace Rtsched

open RedBlack RedBlack.Shape RedBlack.Ctx

/-- The first or the last element of a list. -/
def endOf (d : Dir) (l : List Addr) : Option Addr :=
  match d with
  | .left => l.head?
  | .right => l.getLast?

lemma endOf_branch_nil (d : Dir) (c : Color) (a : Addr) (r : Shape Addr) :
    endOf d (branch d c .nil a r).toList = some a := by
  cases d <;> simp [endOf, branch, toList]

lemma endOf_branch (d : Dir) (c : Color) (a : Addr) {l : Shape Addr} (r : Shape Addr)
    (hl : l ≠ .nil) : endOf d (branch d c l a r).toList = endOf d l.toList := by
  have hne : l.toList ≠ [] := by
    cases l with
    | nil => exact absurd rfl hl
    | node c l a r => simp [toList]
  cases d with
  | left => simp [endOf, branch, toList, List.head?_append_of_ne_nil _ hne]
  | right =>
      simp only [endOf, branch, toList]
      rw [List.getLast?_append_of_ne_nil _ (by simp), List.getLast?_cons]
      cases h : l.toList.getLast? with
      | none => exact absurd (List.getLast?_eq_none_iff.mp h) hne
      | some b => rfl

namespace TreeMem

variable {s : TreeMem} {k : Ctx Addr} {t : Shape Addr} {l l₁ l₂ : List Addr} {a : Addr}

/-- The walk of `minimum` and `maximum` ends at the outermost node of the subtree. -/
lemma outermost_spec {d : Dir} {fuel : ℕ} (hs : Repr s (plug k t))
    (hfuel : t.toList.length ≤ fuel) : s.outermost d fuel t.root = some (endOf d t.toList) := by
  induction fuel generalizing k t with
  | zero =>
      have : t.toList = [] := List.length_eq_zero_iff.mp (by omega)
      cases t with
      | nil => cases d <;> rfl
      | node c l a r => simp [toList] at this
  | succ fuel ih =>
      by_cases ht : t = .nil
      · subst ht
        cases d <;> rfl
      · obtain ⟨c, l, a, r, rfl⟩ := exists_branch d ht
        have hchild : (s.heap a).child d = l.root := by
          rw [hs.heap_branch, RbNode.sided_child]
        rw [root_branch, outermost, hchild]
        by_cases hl : l = .nil
        · subst hl
          rw [if_pos (by rfl), endOf_branch_nil]
        · rw [if_neg (by simpa using hl), endOf_branch d c a r hl]
          refine ih (k := ⟨d, c, a, r⟩ :: k) hs ?_
          have hlt : l.toList.length + 1 ≤ (branch d c l a r).toList.length := by
            cases d <;> simp [branch, toList]
          omega

lemma first_spec (hs : Repr s t) (hlen : s.len = t.toList.length) :
    s.first = some t.toList.head? := by
  rw [first, minimum, hs.root]
  exact outermost_spec (k := []) (d := .left) hs (by omega)

lemma last_spec (hs : Repr s t) (hlen : s.len = t.toList.length) :
    s.last = some t.toList.getLast? := by
  rw [last, maximum, hs.root]
  exact outermost_spec (k := []) (d := .right) hs (by omega)

/-- Climbing from a subtree reaches the first node after it. -/
lemma climb_spec {fuel : ℕ} (hs : Repr s (plug k t)) (ha : t.root = some a)
    (hfuel : k.length ≤ fuel) : s.climb fuel a k.parent = some k.after.head? := by
  induction k generalizing t a fuel with
  | nil => cases fuel <;> rfl
  | cons f k ih =>
      simp only [List.length_cons] at hfuel
      obtain ⟨fuel, rfl⟩ : ∃ m, fuel = m + 1 := ⟨fuel - 1, by omega⟩
      have hf := Repr.heap_branch (k := k) hs
      have htne : t ≠ .nil := by rintro rfl; simp at ha
      obtain ⟨d, c, b, u⟩ := f
      cases d with
      | left =>
          have hne : ¬ some a = (s.heap b).right := by
            rw [hf, ← ha]
            exact Repr.root_ne_sib (k := k) hs (Or.inl htne)
          simp [climb, parent, after, hne]
      | right =>
          have heq : some a = (s.heap b).right := by rw [hf, ← ha]; rfl
          have hpar : (s.heap b).parent = parent k := by rw [hf]; rfl
          have hrec := ih (t := branch .right c t b u) hs (root_branch ..)
            (by omega : k.length ≤ fuel)
          simp only [climb, parent_cons, ← heq, hpar, hrec, if_true, after]

/-- `next` is the successor in the in-order sequence. -/
lemma next_spec (hs : Repr s t) (hlen : s.len = t.toList.length)
    (hl : t.toList = l₁ ++ a :: l₂) : s.next (some a) = some l₂.head? := by
  have hmem : a ∈ t.toList := by rw [hl]; simp
  obtain ⟨k, c, u, v, rfl⟩ := exists_plug_of_mem hmem
  -- the split of the sequence at `a` is the one the context gives
  have hsplit : (plug k (node c u a v)).toList
      = (k.before ++ u.toList) ++ a :: (v.toList ++ k.after) := by
    simp [toList_plug, toList]
  have hnd := hs.nodup
  have h₂ : l₂ = v.toList ++ k.after := by
    have hnd' := hnd
    rw [hl] at hnd
    rw [hsplit] at hnd' hl
    have ha₁ : a ∉ l₁ := fun h => (List.nodup_append.mp hnd).2.2 a h a (by simp) rfl
    have ha₂ : a ∉ l₂ := (List.nodup_cons.mp (List.nodup_append.mp hnd).2.1).1
    exact ((List.append_cons_inj_of_notMem ha₁ ha₂).mp hl.symm).2.2
  have hheap := Repr.heap_branch (d := .left) (k := k) hs
  have hright : (s.heap a).right = v.root := by rw [hheap]; rfl
  have hpar : (s.heap a).parent = k.parent := by rw [hheap]; rfl
  have hsize := length_add_le k (node c u a v)
  have hvlen : v.toList.length ≤ (node c u a v).toList.length := by simp [toList]; omega
  rw [h₂, next, hright]
  by_cases hv : v = .nil
  · subst hv
    have hclimb := climb_spec (k := k) hs (root_branch .left c u .nil a)
      (by omega : k.length ≤ s.len + 1)
    simpa [hpar, toList] using hclimb
  · rw [if_pos (by simpa using hv), minimum,
      outermost_spec (k := ⟨.right, c, a, u⟩ :: k) (d := .left) hs (by omega)]
    have hne : v.toList ≠ [] := by
      cases v with
      | nil => exact absurd rfl hv
      | node c l a r => simp [toList]
    rw [endOf, List.head?_append_of_ne_nil _ hne]

/-- The loop of `contains`, from any position of the sequence. -/
lemma containsLoop_spec {fuel : ℕ} {e : Addr} (hs : Repr s t)
    (hlen : s.len = t.toList.length) (hl : t.toList = l₁ ++ l₂) (hfuel : l₂.length ≤ fuel) :
    s.containsLoop e fuel l₂.head? = some (decide (e ∈ l₂)) := by
  induction l₂ generalizing l₁ fuel with
  | nil => cases fuel <;> simp [containsLoop]
  | cons a l₂ ih =>
      simp only [List.length_cons] at hfuel
      obtain ⟨fuel, rfl⟩ : ∃ m, fuel = m + 1 := ⟨fuel - 1, by omega⟩
      by_cases hae : a = e
      · simp [containsLoop, hae]
      · have hnext := next_spec hs hlen hl
        have hrec := ih (by simp [hl] : t.toList = (l₁ ++ [a]) ++ l₂) (by omega : l₂.length ≤ fuel)
        have hea : ¬ e = a := fun h => hae h.symm
        simp [containsLoop, hae, hnext, hrec, hea]

lemma contains_spec (hs : Repr s t) (hlen : s.len = t.toList.length) (e : Addr) :
    s.contains e = some (decide (e ∈ t.toList)) := by
  have hloop := containsLoop_spec (e := e) hs hlen (List.nil_append _).symm
    (by omega : t.toList.length ≤ s.len + 1)
  simp only [contains, first_spec hs hlen, Option.bind_eq_bind, Option.bind_some]
  exact hloop

/-! ### Searching by comparison -/

section Search

variable {cmp : Addr → Addr → Ordering} [Std.TransCmp cmp] {e : Addr}

/-- The descent of `upper_bound`: the least element above `e` in the subtree, else the
candidate. -/
lemma upperBoundLoop_spec {fuel : ℕ} (candidate : Ptr) (hs : Repr s (plug k t))
    (ho : t.toList.Pairwise fun x y => cmp x y = .lt) (hfuel : t.toList.length ≤ fuel) :
    s.upperBoundLoop cmp e fuel t.root candidate
      = some ((t.toList.find? fun x => cmp e x = .lt).or candidate) := by
  induction t generalizing k fuel candidate with
  | nil => cases fuel <;> simp [upperBoundLoop, toList]
  | node c l a r ihl ihr =>
      have hlen : (node c l a r).toList.length = l.toList.length + (r.toList.length + 1) := by
        simp [toList]
      obtain ⟨fuel, rfl⟩ : ∃ m, fuel = m + 1 := ⟨fuel - 1, by omega⟩
      have hheap := Repr.heap_branch (d := .left) (k := k) hs
      simp only [toList, List.pairwise_append, List.pairwise_cons, List.mem_cons] at ho
      obtain ⟨hol, ⟨-, hor⟩, hlr⟩ := ho
      have hleft : (s.heap a).left = l.root := by rw [hheap]; rfl
      have hright : (s.heap a).right = r.root := by rw [hheap]; rfl
      by_cases hea : cmp e a = .lt
      · have hrec := ihl (some a) (k := ⟨.left, c, a, r⟩ :: k) hs hol
          (by omega : l.toList.length ≤ fuel)
        simp [upperBoundLoop, toList, hea, hleft, hrec, List.find?_append]
      · -- nothing in the left subtree is above `e`
        have hnone : l.toList.find? (fun x => cmp e x = .lt) = none := by
          rw [List.find?_eq_none]
          intro x hx hex
          have hxa := hlr x hx a (Or.inl rfl)
          exact hea (Std.TransCmp.lt_trans (by simpa using hex) hxa)
        have hrec := ihr candidate (k := ⟨.right, c, a, l⟩ :: k) hs hor
          (by omega : r.toList.length ≤ fuel)
        simp [upperBoundLoop, toList, hea, hright, hrec, List.find?_append, hnone]

/-- `upper_bound` on an ordered tree: the first element of the sequence above `e`. -/
lemma upperBound_spec (hs : Repr s t) (hlen : s.len = t.toList.length)
    (ho : t.toList.Pairwise fun x y => cmp x y = .lt) :
    s.upperBound cmp e = some (t.toList.find? fun x => cmp e x = .lt) := by
  rw [upperBound, hs.root, upperBoundLoop_spec none (k := []) hs ho (by omega), Option.or_none]

end Search

/-! ### Well-formed trees -/

section WellFormed

variable {cmp : Addr → Addr → Ordering} {e : Addr}

lemma Wf.first (h : s.Wf cmp l) : s.first = some l.head? := by
  obtain ⟨⟨t, hrepr, -, rfl⟩, hlen, -⟩ := h
  exact first_spec hrepr hlen

lemma Wf.last (h : s.Wf cmp l) : s.last = some l.getLast? := by
  obtain ⟨⟨t, hrepr, -, rfl⟩, hlen, -⟩ := h
  exact last_spec hrepr hlen

lemma Wf.next (h : s.Wf cmp l) (hl : l = l₁ ++ a :: l₂) : s.next (some a) = some l₂.head? := by
  obtain ⟨⟨t, hrepr, -, rfl⟩, hlen, -⟩ := h
  exact next_spec hrepr hlen hl

lemma Wf.contains (h : s.Wf cmp l) (e : Addr) : s.contains e = some (decide (e ∈ l)) := by
  obtain ⟨⟨t, hrepr, -, rfl⟩, hlen, -⟩ := h
  exact contains_spec hrepr hlen e

lemma Wf.upperBound [Std.TransCmp cmp] (h : s.Wf cmp l) :
    s.upperBound cmp e = some (l.find? fun x => cmp e x = .lt) := by
  obtain ⟨⟨t, hrepr, -, rfl⟩, hlen, hsorted⟩ := h
  exact upperBound_spec hrepr hlen hsorted

/-- The entities met from a position on, following `next`; none if it has not ended with null after
the given number of steps. -/
def walk (s : TreeMem) : ℕ → Ptr → Option (List Addr)
  | _, none => some []
  | 0, some _ => none
  | n + 1, some a => do
      let p ← s.next (some a)
      let visited ← walk s n p
      some (a :: visited)

/-- The walk from any position of the sequence visits what is left of it. -/
lemma Wf.walk (h : s.Wf cmp l) (hl : l = l₁ ++ l₂) : s.walk l₂.length l₂.head? = some l₂ := by
  induction l₂ generalizing l₁ with
  | nil => rfl
  | cons a l₂ ih =>
      have hnext := h.next hl
      have hrec := ih (by simp [hl] : l = (l₁ ++ [a]) ++ l₂)
      simp [TreeMem.walk, hnext, hrec]

end WellFormed

end TreeMem

end Rtsched

import Rtsched.Lib.Runs
import Rtsched.RBTree.Insert
import Rtsched.RBTree.Remove

/-!
Whole runs of one tree: any sequence of `insert`, `remove` and `pop_first` from `RBTree::new`.

A `Config` is the memory, the order of the entities at the moment, and the set of entities that
were inserted and not removed since.  Detached entities may change their keys between two
operations, so the order may change as long as it agrees with the old one on the linked entities.

* `Config.exec_spec`: every operation within its contract returns the entity it takes out, keeps the
  invariant and touches only the nodes it should.
* `reachable_wellFormed`: the red-black laws hold in every reachable configuration, and every
  operation within its contract succeeds there.
* `reachable_navigates`: in every reachable configuration the read-only operations describe the
  linked entities in increasing order.
-/

namespace Rtsched

open RedBlack Ordered Runs

/-- A comparison of entities that is a strict total order. -/
structure EntityOrder where
  cmp : Addr → Addr → Ordering
  trans : Std.TransCmp cmp
  eq : Std.LawfulEqCmp cmp

/-- A tree in memory, the order of its entities and the set of those linked. -/
structure Config where
  mem : TreeMem
  order : EntityOrder
  linked : Finset Addr

/-- The operations of a user of the tree, and a change of the keys of detached entities. -/
inductive TreeOp
  | insert (e : Addr)
  | remove (e : Addr)
  | popFirst
  | rekey (o : EntityOrder)

/-- The contract of an operation: insert a detached entity, remove a linked one, leave the keys
of linked entities alone. -/
def TreeOp.Allowed (c : Config) : TreeOp → Prop
  | insert e => e ∉ c.linked
  | remove e => e ∈ c.linked
  | popFirst => True
  | rekey o => ∀ a ∈ c.linked, ∀ b ∈ c.linked, o.cmp a b = c.order.cmp a b

namespace Config

/-- The least linked entity, if there is one. -/
def least (c : Config) : Finset Addr :=
  c.linked.filter fun a => ∀ b ∈ c.linked, b = a ∨ c.order.cmp a b = .lt

/-- The entity that an operation has to take out. -/
def taken (c : Config) : TreeOp → Finset Addr
  | .remove e => {e}
  | .popFirst => c.least
  | .insert _ | .rekey _ => ∅

/-- One operation on the memory and the pointer it returns.  The linked set follows from the
operation alone: whatever `remove` returns, its argument is no longer linked. -/
def exec (c : Config) : TreeOp → Option (Config × Option Addr)
  | .insert e => do
      let s ← c.mem.insert c.order.cmp e
      some ({ c with mem := s, linked := Insert.insert e c.linked }, none)
  | .remove e => do
      let (s, r) ← c.mem.remove (some e)
      some ({ c with mem := s, linked := c.linked \ {e} }, r)
  | .popFirst => do
      let (s, r) ← c.mem.popFirst
      some ({ c with mem := s, linked := c.linked \ c.least }, r)
  | .rekey o => some ({ c with order := o }, none)

/-- `RBTree::new` over any memory and any order. -/
def Start (c : Config) : Prop := c.mem.toRBTree = RBTree.new ∧ c.linked = ∅

/-- An operation within its contract. -/
def Step (c c' : Config) : Prop := ∃ (op : TreeOp) (r : Option Addr),
  op.Allowed c ∧ c.exec op = some (c', r)

/-- The tree is well formed and holds exactly the linked entities. -/
def Inv (c : Config) : Prop := ∃ l, c.mem.Wf c.order.cmp l ∧ ∀ a, a ∈ c.linked ↔ a ∈ l

lemma inv_of_start {c : Config} (h : c.Start) : c.Inv := by
  obtain ⟨hnew, hlinked⟩ := h
  refine ⟨[], ⟨⟨.nil, ⟨?_, trivial, List.nodup_nil⟩, ⟨rfl, trivial, 0, ?_⟩, rfl⟩, ?_, ?_⟩, ?_⟩
  · rw [hnew]; rfl
  · exact Shape.blackHeight_nil.mpr rfl
  · rw [hnew]; rfl
  · exact List.Pairwise.nil
  · simp [hlinked]

/-- Links change only in the tree, and a node that leaves it has its links reset. -/
structure Frame (c c' : Config) : Prop where
  outside : ∀ a, a ∉ c.linked → a ∉ c'.linked → c'.mem.heap a = c.mem.heap a
  reset : ∀ a, a ∈ c.linked → a ∉ c'.linked → c'.mem.heap a = RbNode.new

/-- The least linked entity is the first one in order. -/
lemma least_eq {c : Config} {l : List Addr} (hsorted : l.Pairwise fun x y => c.order.cmp x y = .lt)
    (hl : ∀ a, a ∈ c.linked ↔ a ∈ l) : c.least = l.head?.toFinset := by
  have htrans := c.order.trans
  have heq := c.order.eq
  have hinc : Increasing c.order.cmp l := hsorted
  ext a
  rw [least, Finset.mem_filter, Option.mem_toFinset, Option.mem_def, hinc.head?_eq_some_iff]
  simp only [hl]

/-- Every operation within its contract returns what it has to take out, keeps the invariant and
respects the frame. -/
lemma exec_spec {c : Config} (h : c.Inv) {op : TreeOp} (hop : op.Allowed c) :
    ∃ c' r, c.exec op = some (c', r) ∧ r.toFinset = c.taken op ∧ c'.Inv ∧ Frame c c' := by
  obtain ⟨l, hwf, hl⟩ := h
  have htrans := c.order.trans
  have heq := c.order.eq
  cases op with
  | insert e =>
      obtain ⟨s, hrun, hs, ho⟩ := TreeMem.insert_spec hwf fun he => hop ((hl e).mpr he)
      refine ⟨_, _, by simp only [exec, hrun]; rfl, rfl, ⟨_, hs, ?_⟩, ?_, ?_⟩
      · simp [hl]
      · intro a ha ha'
        simp only [Finset.mem_insert, not_or] at ha'
        exact ho a ha'.1 fun hm => ha ((hl a).mpr hm)
      · intro a ha ha'
        exact absurd (Finset.mem_insert_of_mem ha) ha'
  | remove e =>
      obtain ⟨s, hrun, hs, he, ho⟩ := TreeMem.remove_spec hwf ((hl e).mp hop)
      obtain ⟨t, hrepr, -, rfl⟩ := hwf.shape
      refine ⟨_, _, by simp only [exec, hrun]; rfl, by simp [taken], ⟨_, hs, ?_⟩, ?_, ?_⟩
      · intro a
        simp [hl, hrepr.nodup.mem_erase_iff, and_comm]
      · exact fun a ha _ => ho a fun hm => ha ((hl a).mpr hm)
      · intro a ha ha'
        obtain rfl : a = e := by simpa [ha] using ha'
        exact he
  | popFirst =>
      obtain ⟨s, hrun, hs, he, ho⟩ := TreeMem.popFirst_spec hwf
      have hleast := least_eq hwf.sorted hl
      obtain ⟨t, hrepr, -, htl⟩ := hwf.shape
      have hnd : l.Nodup := htl ▸ hrepr.nodup
      refine ⟨_, _, by simp only [exec, hrun]; rfl, hleast.symm, ⟨_, hs, ?_⟩, ?_, ?_⟩
      · intro a
        rw [hleast]
        cases l with
        | nil => simp [hl]
        | cons b l =>
            obtain ⟨hb, -⟩ := List.nodup_cons.mp hnd
            simp only [Finset.mem_sdiff, hl, List.head?_cons, Option.toFinset_some,
              Finset.mem_singleton, List.mem_cons, List.tail_cons]
            constructor
            · tauto
            · intro ha
              exact ⟨Or.inr ha, by rintro rfl; exact hb ha⟩
      · exact fun a ha _ => ho a fun hm => ha ((hl a).mpr hm)
      · intro a ha ha'
        rw [hleast] at ha'
        refine he a ?_
        simpa [ha] using ha'
  | rekey o =>
      refine ⟨_, _, rfl, rfl, ⟨l, ⟨hwf.shape, hwf.len, ?_⟩, hl⟩, fun _ _ _ => rfl, ?_⟩
      · refine hwf.sorted.imp_of_mem fun {a b} ha hb hab => ?_
        rw [hop a ((hl a).mpr ha) b ((hl b).mpr hb), hab]
      · intro a ha ha'
        exact absurd ha ha'

lemma inv_of_reach {c : Config} (h : Reach Start Step c) : c.Inv := by
  refine h.invariant (fun _ => inv_of_start) fun c c' hc hstep => ?_
  obtain ⟨op, r, hop, hrun⟩ := hstep
  obtain ⟨c'', r', hrun', -, hinv, -⟩ := exec_spec hc hop
  obtain ⟨rfl, -⟩ := Prod.mk.inj (Option.some.inj (hrun.symm.trans hrun'))
  exact hinv

/-- **The red-black laws hold in every run**: every reachable configuration stores a red-black
shape whose in-order sequence is strictly increasing and holds exactly the entities that were
inserted and not removed since, with `len` their number.  Every operation within its contract
returns there, `remove` with its argument and `pop_first` with the least entity (null if there is
none); it touches no link outside the tree and resets the links of the node it takes out. -/
theorem reachable_wellFormed (c : Config) (h : Reach Start Step c) :
    (∃ t : Shape Addr, c.mem.root = t.root ∧ Linked c.mem.heap none t
      ∧ t.color = .black ∧ t.NoRedRed ∧ (∃ n, t.BlackHeight n)
      ∧ t.toList.Pairwise (fun x y => c.order.cmp x y = .lt)
      ∧ c.mem.len = t.toList.length ∧ t.toList.Nodup ∧ t.toList.toFinset = c.linked)
    ∧ ∀ op : TreeOp, op.Allowed c → ∃ c' r, c.exec op = some (c', r) ∧ Step c c'
      ∧ r.toFinset = c.taken op
      ∧ (∀ a, a ∉ c.linked → a ∉ c'.linked → c'.mem.heap a = c.mem.heap a)
      ∧ ∀ a, a ∈ c.linked → a ∉ c'.linked → c'.mem.heap a = RbNode.new := by
  have hinv := inv_of_reach h
  refine ⟨?_, fun op hop => ?_⟩
  · obtain ⟨l, ⟨⟨t, hrepr, hrb, rfl⟩, hlen, hsorted⟩, hl⟩ := hinv
    refine ⟨t, hrepr.root, hrepr.linked, hrb.root_black, hrb.noRedRed, hrb.blackHeight, hsorted,
      hlen, hrepr.nodup, ?_⟩
    ext a
    simp [hl]
  · obtain ⟨c', r, hrun, htaken, -, hout, hreset⟩ := exec_spec hinv hop
    exact ⟨c', r, hrun, ⟨op, r, hop, hrun⟩, htaken, hout, hreset⟩

/-- Entities ordered by address. -/
def addrOrder : EntityOrder := ⟨compare, inferInstance, inferInstance⟩

/-- The empty tree over a memory of detached nodes. -/
def empty : Config := ⟨⟨RBTree.new, fun _ => RbNode.new⟩, addrOrder, ∅⟩

/-- The linked set and the order follow from the operation. -/
lemma linked_of_exec {c c' : Config} {op : TreeOp} {r : Option Addr} :
    c.exec op = some (c', r) → (∀ o, op ≠ .rekey o) →
    c'.linked = (match op with
      | .insert e => Insert.insert e c.linked
      | op => c.linked \ c.taken op) ∧ c'.order = c.order := by
  intro h hop
  cases op with
  | rekey o => exact absurd rfl (hop o)
  | insert e | remove e | popFirst =>
      simp only [exec, Option.bind_eq_bind, Option.bind_eq_some_iff, Option.some.injEq,
        Prod.mk.injEq] at h
      obtain ⟨s, -, rfl, -⟩ := h
      exact ⟨rfl, rfl⟩

lemma exists_pair : ∃ c : Config, Reach Start Step c ∧ c.linked = {3, 5} ∧ c.order = addrOrder := by
  have h : Reach Start Step empty := .start ⟨rfl, rfl⟩
  have hop : (TreeOp.insert 5).Allowed empty := by simp [TreeOp.Allowed, empty]
  obtain ⟨c₁, r₁, hrun₁, -⟩ := exec_spec (inv_of_reach h) hop
  have h₁ := h.step ⟨_, _, hop, hrun₁⟩
  obtain ⟨hl₁, ho₁⟩ := linked_of_exec hrun₁ nofun
  replace hl₁ : c₁.linked = {5} := hl₁
  have hop₁ : (TreeOp.insert 3).Allowed c₁ := by simp [TreeOp.Allowed, hl₁]
  obtain ⟨c₂, r₂, hrun₂, -⟩ := exec_spec (inv_of_reach h₁) hop₁
  obtain ⟨hl₂, ho₂⟩ := linked_of_exec hrun₂ nofun
  exact ⟨c₂, h₁.step ⟨_, _, hop₁, hrun₂⟩, hl₂.trans (by rw [hl₁]), ho₂.trans ho₁⟩

lemma eq_some_of_toFinset {r : Option Addr} {a : Addr} (h : r.toFinset = {a}) : r = some a :=
  Option.mem_toFinset.mp (h ▸ Finset.mem_singleton_self a)

/-- Of three entities the middle one is removed, and then the least one popped. -/
theorem reachable_wellFormed_removed : ∃ c₁ c₂ c₃ : Config, Reach Start Step c₁ ∧
    c₁.linked = {8, 3, 5} ∧ c₁.exec (.remove 5) = some (c₂, some 5) ∧
    c₂.mem.heap 5 = RbNode.new ∧ c₂.exec .popFirst = some (c₃, some 3) ∧
    c₃.mem.heap 3 = RbNode.new ∧ c₃.linked = {8} ∧ c₃.mem.len = 1 := by
  obtain ⟨c, h, hl, ho⟩ := exists_pair
  have hop : (TreeOp.insert 8).Allowed c := by simp [TreeOp.Allowed, hl]
  obtain ⟨c₁, r₁, hrun₁, hstep₁, -⟩ := (reachable_wellFormed c h).2 _ hop
  have h₁ := h.step hstep₁
  obtain ⟨hl₁, ho₁⟩ := linked_of_exec hrun₁ nofun
  replace hl₁ : c₁.linked = {8, 3, 5} := hl₁.trans (by rw [hl])
  have hop₁ : (TreeOp.remove 5).Allowed c₁ := by simp [TreeOp.Allowed, hl₁]
  obtain ⟨c₂, r₂, hrun₂, hstep₂, hr₂, -, hreset₂⟩ := (reachable_wellFormed c₁ h₁).2 _ hop₁
  have h₂ := h₁.step hstep₂
  obtain ⟨hl₂, ho₂⟩ := linked_of_exec hrun₂ nofun
  replace hl₂ : c₂.linked = {8, 3, 5} \ {5} := hl₂.trans (by rw [hl₁]; rfl)
  have hleast : c₂.least = {3} := by
    rw [least, ho₂, ho₁, ho, hl₂]
    decide
  obtain ⟨c₃, r₃, hrun₃, hstep₃, hr₃, -, hreset₃⟩ :=
    (reachable_wellFormed c₂ h₂).2 .popFirst trivial
  have hl₃ : c₃.linked = {8} := by
    refine (linked_of_exec hrun₃ nofun).1.trans ?_
    simp only [taken, hleast, hl₂]
    decide
  obtain rfl : r₂ = some 5 := eq_some_of_toFinset hr₂
  obtain rfl : r₃ = some 3 := eq_some_of_toFinset (hr₃.trans hleast)
  obtain ⟨⟨t, -, -, -, -, -, -, hlen, hnd, hset⟩, -⟩ := reachable_wellFormed c₃ (h₂.step hstep₃)
  refine ⟨c₁, c₂, c₃, h₁, hl₁, hrun₂, hreset₂ 5 ?_ ?_, hrun₃, hreset₃ 3 ?_ ?_, hl₃, ?_⟩
  · simp [hl₁]
  · simp [hl₂]
  · simp [hl₂]
  · simp [hl₃]
  · rw [hlen, ← List.toFinset_card_of_nodup hnd, hset, hl₃]
    rfl

/-! ### Navigation -/

/-- **Navigation in every run.**  In every reachable configuration the walk from `first` along
`next` meets every linked entity once, in increasing order, and null after `len` steps; `first` and
`last` are the minimum and the maximum, null when nothing is linked; `contains` is membership; and
`upper_bound` of any entity is the least linked one above it, null when there is none, and agrees
with `next` on linked entities. -/
theorem reachable_navigates (c : Config) (h : Reach Start Step c) :
    (∃ l : List Addr, l.Pairwise (fun x y => c.order.cmp x y = .lt) ∧ l.Nodup
      ∧ l.toFinset = c.linked ∧ l.length = c.mem.len
      ∧ (c.mem.first.bind (c.mem.walk c.mem.len)) = some l)
    ∧ (c.mem.first = some none ↔ c.linked = ∅)
    ∧ (∀ a, c.mem.first = some (some a) ↔
        a ∈ c.linked ∧ ∀ b ∈ c.linked, b = a ∨ c.order.cmp a b = .lt)
    ∧ (c.mem.last = some none ↔ c.linked = ∅)
    ∧ (∀ a, c.mem.last = some (some a) ↔
        a ∈ c.linked ∧ ∀ b ∈ c.linked, b = a ∨ c.order.cmp b a = .lt)
    ∧ (∀ e, c.mem.contains e = some (decide (e ∈ c.linked)))
    ∧ ∀ e, (c.mem.upperBound c.order.cmp e = some none ↔ ∀ b ∈ c.linked, c.order.cmp e b ≠ .lt)
      ∧ (∀ a, c.mem.upperBound c.order.cmp e = some (some a) ↔
          a ∈ c.linked ∧ c.order.cmp e a = .lt
            ∧ ∀ b ∈ c.linked, c.order.cmp e b = .lt → b = a ∨ c.order.cmp a b = .lt)
      ∧ (e ∈ c.linked → c.mem.upperBound c.order.cmp e = c.mem.next (some e)) := by
  obtain ⟨l, hwf, hl⟩ := inv_of_reach h
  have htrans := c.order.trans
  have heq := c.order.eq
  have hsorted := hwf.sorted
  have hempty : l = [] ↔ c.linked = ∅ := by
    rw [List.eq_nil_iff_forall_not_mem, Finset.eq_empty_iff_forall_notMem]
    exact forall_congr' fun a => not_congr (hl a).symm
  refine ⟨⟨l, hsorted, hsorted.nodup, ?_, hwf.len.symm, ?_⟩, ?_, fun a => ?_, ?_, fun a => ?_,
    fun e => ?_, fun e => ⟨?_, fun a => ?_, fun he => ?_⟩⟩
  · ext a
    rw [List.mem_toFinset, hl]
  · rw [hwf.first, hwf.len, Option.bind_some]
    exact hwf.walk (List.nil_append l).symm
  · rw [hwf.first, Option.some.injEq, List.head?_eq_none_iff, hempty]
  · rw [hwf.first, Option.some.injEq, hsorted.head?_eq_some_iff]
    simp only [hl]
  · rw [hwf.last, Option.some.injEq, List.getLast?_eq_none_iff, hempty]
  · rw [hwf.last, Option.some.injEq, hsorted.getLast?_eq_some_iff]
    simp only [hl]
  · rw [hwf.contains]
    simp only [hl]
  · rw [hwf.upperBound, Option.some.injEq, List.find?_eq_none]
    simp only [hl, decide_eq_true_eq, ne_eq]
  · rw [hwf.upperBound, Option.some.injEq, hsorted.find?_eq_some_iff]
    simp only [hl, decide_eq_true_eq]
  · -- a linked entity splits the sequence
    obtain ⟨l₁, l₂, hsplit⟩ := List.append_of_mem ((hl e).mp he)
    rw [hsplit] at hsorted
    rw [hwf.upperBound, hwf.next hsplit, hsplit, hsorted.find?_lt_append]

/-- Navigation at a tree of two entities, also from an entity between them. -/
theorem reachable_navigates_pair : ∃ c : Config, Reach Start Step c ∧ c.linked = {3, 5}
    ∧ c.mem.first = some (some 3) ∧ c.mem.contains 4 = some false
    ∧ c.mem.upperBound c.order.cmp 4 = some (some 5) := by
  obtain ⟨c, h, hl, ho⟩ := exists_pair
  obtain ⟨-, -, hfirst, -, -, hcontains, hupper⟩ := reachable_navigates c h
  refine ⟨c, h, hl, (hfirst 3).mpr ?_, ?_, ((hupper 4).2.1 5).mpr ?_⟩
  · rw [hl, ho]
    decide
  · rw [hcontains, hl]
    decide
  · rw [hl, ho]
    decide

end Config

end Rtsched

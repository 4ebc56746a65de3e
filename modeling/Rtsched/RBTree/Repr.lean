import Rtsched.Lib.Increasing
import Rtsched.RBTree.Basic

/-!
The heap representation of a red-black shape, and what the pointer primitives do to it.

* `Linked h p t`: the heap `h` stores the shape `t` below the parent pointer `p`, every child's
  parent pointer naming its parent; `CtxLinked h k q` is the same for a context whose hole is
  filled by the pointer `q`.  `linked_plug` splits a stored tree at any of its nodes.
* `Repr s t`: the tree value `s` stores `t`.
* `relink_eq`, `rotate_spec` and `setColor_spec`: redirecting the link to a node, rotating at it
  and recolouring it, at any place of the tree.

All three specifications end with the same frame: `SameOutside`, nodes outside the tree keep
their links.
-/

namespace Rtsched

open RedBlack RedBlack.Shape RedBlack.Ctx Ordered

/-- A node from its links on side `d` and on the other side. -/
def RbNode.sided (d : Dir) (p x y : Ptr) (c : Color) : RbNode :=
  match d with
  | .left => ⟨p, x, y, c⟩
  | .right => ⟨p, y, x, c⟩

namespace RbNode

variable (d : Dir) (p x y v : Ptr) (c c' : Color)

@[simp] lemma sided_parent : (sided d p x y c).parent = p := by cases d <;> rfl

@[simp] lemma sided_color : (sided d p x y c).color = c := by cases d <;> rfl

@[simp] lemma sided_child : (sided d p x y c).child d = x := by cases d <;> rfl

@[simp] lemma sided_child_flip : (sided d p x y c).child d.flip = y := by cases d <;> rfl

@[simp] lemma sided_setChild : (sided d p x y c).setChild d v = sided d p v y c := by
  cases d <;> rfl

@[simp] lemma sided_setChild_flip : (sided d p x y c).setChild d.flip v = sided d p x v c := by
  cases d <;> rfl

@[simp] lemma sided_setParent : (sided d p x y c).setParent v = sided d v x y c := by
  cases d <;> rfl

@[simp] lemma sided_setColor : (sided d p x y c).setColor c' = sided d p x y c' := by
  cases d <;> rfl

lemma sided_flip : sided d.flip p x y c = sided d p y x c := by cases d <;> rfl

@[simp] lemma setChild_parent (n : RbNode) : (n.setChild d v).parent = n.parent := by
  cases d <;> rfl

end RbNode

/-! ### Stored shapes and contexts -/

/-- The heap stores the shape `t` below the parent pointer `p`. -/
def Linked (h : Addr → RbNode) : Ptr → Shape Addr → Prop
  | _, .nil => True
  | p, .node c l a r =>
      h a = ⟨p, l.root, r.root, c⟩ ∧ Linked h (some a) l ∧ Linked h (some a) r

/-- The heap stores the context `k` around a subtree whose root pointer is `q`. -/
def CtxLinked (h : Addr → RbNode) : Ctx Addr → Ptr → Prop
  | [], _ => True
  | f :: k, q =>
      h f.label = RbNode.sided f.dir (parent k) q f.sib.root f.color
        ∧ Linked h (some f.label) f.sib ∧ CtxLinked h k (some f.label)

/-- The root pointer of a tree whose subtree in the context `k` has root pointer `q`. -/
def ctxRoot : Ctx Addr → Ptr → Ptr
  | [], q => q
  | f :: k, _ => ctxRoot k (some f.label)

/-- The side on which the hole of a context hangs. -/
def ctxDir : Ctx Addr → Dir
  | [] => .left
  | f :: _ => f.dir

section Linked

variable {h h' : Addr → RbNode} {p p' q q' : Ptr} {t : Shape Addr} {k : Ctx Addr}

@[simp] lemma linked_nil : Linked h p .nil := trivial

lemma linked_branch {d : Dir} {c : Color} {l r : Shape Addr} {a : Addr} :
    Linked h p (branch d c l a r) ↔
      h a = RbNode.sided d p l.root r.root c
        ∧ Linked h (some a) l ∧ Linked h (some a) r := by
  cases d with
  | left => rfl
  | right =>
      simp only [branch, Linked, RbNode.sided]
      tauto

lemma root_plug (k : Ctx Addr) (t : Shape Addr) : (plug k t).root = ctxRoot k t.root := by
  induction k generalizing t with
  | nil => rfl
  | cons f k ih => rw [plug_cons, ih, root_branch, ctxRoot]

/-- A stored tree, split at one of its subtrees. -/
lemma linked_plug : Linked h none (plug k t) ↔ CtxLinked h k t.root ∧ Linked h k.parent t := by
  induction k generalizing t with
  | nil => simp [CtxLinked]
  | cons f k ih =>
      rw [plug_cons, ih, linked_branch, root_branch, CtxLinked, parent_cons]
      tauto

/-- Storage depends only on the nodes of the shape. -/
lemma Linked.congr (hl : Linked h p t) (hh : ∀ a ∈ t.toList, h' a = h a) : Linked h' p t := by
  induction t generalizing p with
  | nil => trivial
  | node c l a r ihl ihr =>
      obtain ⟨ha, hll, hlr⟩ := hl
      refine ⟨by rw [hh a (by simp [toList]), ha], ihl hll fun b hb => ?_, ihr hlr fun b hb => ?_⟩
      · exact hh b (by simp [toList, hb])
      · exact hh b (by simp [toList, hb])

/-- Moving a stored shape below another parent. -/
lemma Linked.reparent (hl : Linked h p t) (hnd : t.toList.Nodup)
    (hr : ∀ a, t.root = some a → h' a = (h a).setParent p')
    (hh : ∀ a ∈ t.toList, t.root ≠ some a → h' a = h a) : Linked h' p' t := by
  cases t with
  | nil => trivial
  | node c l a r =>
      obtain ⟨ha, hll, hlr⟩ := hl
      have hnd' := (nodup_branch .left c l r a).mp hnd
      have hne : ∀ b, b ∈ l.toList ∨ b ∈ r.toList → (Shape.node c l a r).root ≠ some b := by
        rintro b hb hab
        have hb' : a = b := by simpa using hab
        subst hb'
        tauto
      refine ⟨by rw [hr a rfl, ha]; rfl, hll.congr fun b hb => ?_, hlr.congr fun b hb => ?_⟩
      · exact hh b (by simp [toList, hb]) (hne b (Or.inl hb))
      · exact hh b (by simp [toList, hb]) (hne b (Or.inr hb))

/-- The labels of a context: those of its frames and of their siblings. -/
def ctxLabels (k : Ctx Addr) : List Addr := k.before ++ k.after

lemma mem_ctxLabels_cons {f : Frame Addr} {a : Addr} :
    a ∈ ctxLabels (f :: k) ↔ a = f.label ∨ a ∈ f.sib.toList ∨ a ∈ ctxLabels k := by
  cases hf : f.dir <;> simp only [ctxLabels, before, after, hf, List.mem_append, List.mem_cons,
    List.not_mem_nil, or_false] <;> tauto

lemma mem_toList_plug {a : Addr} : a ∈ (plug k t).toList ↔ a ∈ ctxLabels k ∨ a ∈ t.toList := by
  rw [toList_plug, ctxLabels]
  simp only [List.mem_append]
  tauto

/-- What `Nodup` says at a split. -/
lemma nodup_plug (hnd : (plug k t).toList.Nodup) :
    t.toList.Nodup ∧ (∀ a ∈ ctxLabels k, a ∉ t.toList) ∧ (ctxLabels k).Nodup := by
  rw [toList_plug] at hnd
  simp only [ctxLabels, List.nodup_append, List.mem_append] at hnd ⊢
  grind

/-- The root of a tree lies in a context that is not empty. -/
lemma ctxRoot_mem (hk : k ≠ []) (q : Ptr) : ∃ a ∈ ctxLabels k, ctxRoot k q = some a := by
  induction k generalizing q with
  | nil => exact absurd rfl hk
  | cons f k ih =>
      by_cases hk' : k = []
      · subst hk'
        exact ⟨f.label, mem_ctxLabels_cons.mpr (Or.inl rfl), rfl⟩
      · obtain ⟨a, ha, hroot⟩ := ih hk' (some f.label)
        exact ⟨a, mem_ctxLabels_cons.mpr (Or.inr (Or.inr ha)), hroot⟩

lemma nodup_ctxLabels_cons {f : Frame Addr} (hnd : (ctxLabels (f :: k)).Nodup) :
    f.label ∉ f.sib.toList ∧ f.label ∉ ctxLabels k ∧ f.sib.toList.Nodup
      ∧ (∀ a ∈ f.sib.toList, a ∉ ctxLabels k) ∧ (ctxLabels k).Nodup := by
  cases hf : f.dir <;>
    simp only [ctxLabels, before, after, hf, List.nodup_append, List.mem_append, List.nodup_cons,
      List.mem_cons] at hnd ⊢ <;> grind

lemma CtxLinked.congr (hk : CtxLinked h k q) (hh : ∀ a ∈ ctxLabels k, h' a = h a) :
    CtxLinked h' k q := by
  induction k generalizing q with
  | nil => trivial
  | cons f k ih =>
      obtain ⟨hf, hs, hk⟩ := hk
      refine ⟨?_, hs.congr fun a ha => ?_, ih hk fun a ha => ?_⟩
      · rw [hh f.label (mem_ctxLabels_cons.mpr (Or.inl rfl)), hf]
      · exact hh a (mem_ctxLabels_cons.mpr (Or.inr (Or.inl ha)))
      · exact hh a (mem_ctxLabels_cons.mpr (Or.inr (Or.inr ha)))

/-- Pointing the hole of a stored context at another subtree. -/
lemma CtxLinked.rehang (hk : CtxLinked h k q) (hnd : (ctxLabels k).Nodup)
    (hr : ∀ a, k.parent = some a → h' a = (h a).setChild (ctxDir k) q')
    (hh : ∀ a ∈ ctxLabels k, k.parent ≠ some a → h' a = h a) : CtxLinked h' k q' := by
  cases k with
  | nil => trivial
  | cons f k =>
      obtain ⟨hf, hs, hk⟩ := hk
      obtain ⟨h1, h2, -, -, -⟩ := nodup_ctxLabels_cons hnd
      refine ⟨?_, hs.congr fun a ha => ?_, hk.congr fun a ha => ?_⟩
      · rw [hr f.label rfl, hf]
        exact RbNode.sided_setChild ..
      · refine hh a (mem_ctxLabels_cons.mpr (Or.inr (Or.inl ha))) fun he => ?_
        have : f.label = a := by simpa using he
        exact h1 (this ▸ ha)
      · refine hh a (mem_ctxLabels_cons.mpr (Or.inr (Or.inr ha))) fun he => ?_
        have : f.label = a := by simpa using he
        exact h2 (this ▸ ha)

end Linked

/-- The tree value `s` stores the shape `t`. -/
structure Repr (s : TreeMem) (t : Shape Addr) : Prop where
  root : s.root = t.root
  linked : Linked s.heap none t
  nodup : t.toList.Nodup

/-- Nodes outside the list keep their links, and `len` is untouched. -/
structure SameOutside (l : List Addr) (s s' : TreeMem) : Prop where
  heap : ∀ a, a ∉ l → s'.heap a = s.heap a
  len : s'.len = s.len

namespace SameOutside

variable {l l' : List Addr} {s s' s'' : TreeMem}

lemma refl (l : List Addr) (s : TreeMem) : SameOutside l s s := ⟨fun _ _ => rfl, rfl⟩

lemma trans (h : SameOutside l s s') (h' : SameOutside l s' s'') : SameOutside l s s'' :=
  ⟨fun a ha => by rw [h'.heap a ha, h.heap a ha], by rw [h'.len, h.len]⟩

lemma mono (h : SameOutside l s s') (hl : ∀ a ∈ l, a ∈ l') : SameOutside l' s s' :=
  ⟨fun a ha => h.heap a fun hm => ha (hl a hm), h.len⟩

end SameOutside

namespace TreeMem

/-- Write through a pointer when it is not null. -/
def poke (h : Addr → RbNode) (p : Ptr) (f : RbNode → RbNode) : Addr → RbNode :=
  match p with
  | none => h
  | some a => Function.update h a (f (h a))

section poke

variable {h : Addr → RbNode} {p : Ptr} {f : RbNode → RbNode} {a : Addr}

@[simp] lemma poke_self : poke h (some a) f a = f (h a) := by simp [poke]

lemma poke_of_ne (hp : p ≠ some a) : poke h p f a = h a := by
  cases p with
  | none => rfl
  | some b => exact Function.update_of_ne (by rintro rfl; exact hp rfl) _ _

lemma poke_of_eq (hp : p = some a) : poke h p f a = f (h a) := by rw [hp, poke_self]

@[simp] lemma deref_some (s : TreeMem) (a : Addr) : s.deref (some a) = some (s.heap a) := rfl

@[simp] lemma modify_some (s : TreeMem) (a : Addr) (f : RbNode → RbNode) :
    s.modify (some a) f = some { s with heap := poke s.heap (some a) f } := rfl

@[simp] lemma whenSome_modify (s : TreeMem) (p : Ptr) (f : RbNode → RbNode) :
    (s.whenSome p fun s => s.modify p f) = some { s with heap := poke s.heap p f } := by
  cases p with
  | none => rfl
  | some a => rfl

end poke

/-- The memory after the link to the hole of `k` has been pointed at `v`. -/
def hang (s : TreeMem) (k : Ctx Addr) (v : Ptr) : TreeMem :=
  { s with
    root := if k = [] then v else s.root
    heap := poke s.heap k.parent (RbNode.setChild (ctxDir k) v) }

/-- `relink` finds the link that leads to a node, whichever child it looks at first. -/
lemma relink_eq {s : TreeMem} {k : Ctx Addr} {x : Addr} (d : Dir) (v : Ptr)
    (hx : (s.heap x).parent = k.parent) (hk : CtxLinked s.heap k (some x))
    (hs : x ∉ ctxLabels k) : s.relink d (some x) v = some (s.hang k v) := by
  cases k with
  | nil => simp [relink, hx, hang, poke]
  | cons f k =>
      obtain ⟨hf, -, -⟩ := hk
      have hsib : ¬ some x = f.sib.root := fun he =>
        hs (mem_ctxLabels_cons.mpr (Or.inr (Or.inl (root_mem he.symm))))
      rcases Dir.eq_or_eq_flip d f.dir with hd | hd
      · simp [relink, hx, hf, ← hd, setChild, hang, ctxDir]
      · have hd' : d = f.dir.flip := by rw [hd, Dir.flip_flip]
        simp [relink, hx, hf, hd', hsib, setChild, hang, ctxDir]

/-! ### Recolouring and rotating -/

/-- Recolouring the root of a stored subtree. -/
lemma setColor_spec {s : TreeMem} {k : Ctx Addr} {d : Dir} {c : Color} {l r : Shape Addr}
    {a : Addr} (hs : Repr s (plug k (branch d c l a r))) (c' : Color) :
    ∃ s', s.setColor (some a) c' = some s' ∧ Repr s' (plug k (branch d c' l a r))
      ∧ SameOutside (plug k (branch d c l a r)).toList s s' := by
  obtain ⟨hroot, hlink, hnd⟩ := hs
  obtain ⟨hck, hl⟩ := linked_plug.mp hlink
  obtain ⟨ha, hll, hlr⟩ := linked_branch.mp hl
  obtain ⟨hnt, hdisj, -⟩ := nodup_plug hnd
  obtain ⟨hal, har, -, -, -⟩ := (nodup_branch ..).mp hnt
  have hak : a ∉ ctxLabels k := fun hm => hdisj a hm (by simp [mem_toList_branch])
  have hne : ∀ {b : Addr}, b ≠ a →
      poke s.heap (some a) (RbNode.setColor c') b = s.heap b := fun hb =>
    poke_of_ne (by simpa using hb.symm)
  refine ⟨_, rfl, ⟨?_, linked_plug.mpr ⟨?_, linked_branch.mpr ⟨?_, ?_, ?_⟩⟩, ?_⟩, ?_, rfl⟩
  · rw [root_plug] at hroot ⊢
    simpa using hroot
  · rw [root_branch] at hck ⊢
    exact hck.congr fun b hb => hne (by rintro rfl; exact hak hb)
  · simp [ha]
  · exact hll.congr fun b hb => hne (by rintro rfl; exact hal hb)
  · exact hlr.congr fun b hb => hne (by rintro rfl; exact har hb)
  · rwa [toList_plug_congr k (toList_recolor d c' c l r a)]
  · intro b hb
    refine hne ?_
    rintro rfl
    exact hb (mem_toList_plug.mpr (Or.inr (by simp [mem_toList_branch])))

/-- The parent of the hole is a label of the context. -/
lemma parent_mem {k : Ctx Addr} {a : Addr} (h : k.parent = some a) : a ∈ ctxLabels k := by
  cases k with
  | nil => simp at h
  | cons f k => exact mem_ctxLabels_cons.mpr (Or.inl (by simpa using h.symm))

/-- The writes of a rotation, node by node. -/
lemma rotate_writes {s : TreeMem} {k : Ctx Addr} {d : Dir} {c c' : Color} {q m q' : Ptr}
    {x y : Addr} (hx : s.heap x = RbNode.sided d k.parent q (some y) c)
    (hy : s.heap y = RbNode.sided d (some x) m q' c') (hck : CtxLinked s.heap k (some x))
    (hxy : x ≠ y) (hxk : x ∉ ctxLabels k) (hyk : y ∉ ctxLabels k) (hmx : m ≠ some x)
    (hmy : m ≠ some y) (hmk : ∀ a ∈ ctxLabels k, m ≠ some a) :
    ∃ s', s.rotate d (some x) = some s' ∧ s'.len = s.len
      ∧ s'.root = (if k = [] then some y else s.root)
      ∧ s'.heap x = RbNode.sided d (some y) q m c
      ∧ s'.heap y = RbNode.sided d k.parent (some x) q' c'
      ∧ (∀ a, m = some a → s'.heap a = (s.heap a).setParent (some x))
      ∧ (∀ a, k.parent = some a → s'.heap a = (s.heap a).setChild (ctxDir k) (some y))
      ∧ ∀ a, a ≠ x → a ≠ y → m ≠ some a → k.parent ≠ some a → s'.heap a = s.heap a := by
  have hyx : y ≠ x := Ne.symm hxy
  have hpx : k.parent ≠ some x := fun he => hxk (parent_mem he)
  have hpy : k.parent ≠ some y := fun he => hyk (parent_mem he)
  have hmp : ∀ a, m = some a → k.parent ≠ some a := fun a ha he => hmk a (parent_mem he) ha
  -- the heap after the first three writes, before the link to `x` is redirected
  set h₁ := poke s.heap (some x) (RbNode.setChild d.flip m) with hh₁
  set h₂ := poke h₁ m (RbNode.setParent (some x)) with hh₂
  set h₃ := poke h₂ (some y) (RbNode.setParent k.parent) with hh₃
  have h₂x : h₂ x = RbNode.sided d k.parent q m c := by
    rw [hh₂, poke_of_ne hmx, hh₁, poke_self, hx, RbNode.sided_setChild_flip]
  have h₂o : ∀ a, a ≠ x → m ≠ some a → h₂ a = s.heap a := fun a hax ham => by
    rw [hh₂, poke_of_ne ham, hh₁, poke_of_ne (by simpa using Ne.symm hax)]
  have h₂m : ∀ a, m = some a → h₂ a = (s.heap a).setParent (some x) := fun a ham => by
    have hax : a ≠ x := by rintro rfl; exact hmx ham
    rw [hh₂, poke_of_eq ham, hh₁, poke_of_ne (by simpa using Ne.symm hax)]
  have h₃o : ∀ a, a ≠ y → h₃ a = h₂ a := fun a hay => poke_of_ne (by simpa using Ne.symm hay)
  have h₃y : h₃ y = RbNode.sided d k.parent m q' c' := by
    rw [hh₃, poke_self, h₂o y hyx hmy, hy, RbNode.sided_setParent]
  have hck₃ : CtxLinked h₃ k (some x) := hck.congr fun a ha => by
    have hax : a ≠ x := by rintro rfl; exact hxk ha
    have hay : a ≠ y := by rintro rfl; exact hyk ha
    rw [h₃o a hay, h₂o a hax (hmk a ha)]
  have hpar : (h₃ x).parent = k.parent := by rw [h₃o x hxy, h₂x, RbNode.sided_parent]
  have hrel := relink_eq (s := { s with heap := h₃ }) d (some y) hpar hck₃ hxk
  -- the heap of the last two writes
  set s₄ := ({ s with heap := h₃ } : TreeMem).hang k (some y) with hs₄
  have h₄p : ∀ a, k.parent = some a → s₄.heap a = (h₃ a).setChild (ctxDir k) (some y) :=
    fun a ha => poke_of_eq ha
  have h₄o : ∀ a, k.parent ≠ some a → s₄.heap a = h₃ a := fun a ha => poke_of_ne ha
  have hrun : s.rotate d (some x) = some { s₄ with
      heap := poke (poke s₄.heap (some y) (RbNode.setChild d (some x))) (some x)
        (RbNode.setParent (some y)) } := by
    simp only [rotate, deref_some, hx, RbNode.sided_child_flip, hy, RbNode.sided_child,
      Option.bind_eq_bind, Option.bind_some, setChild, modify_some, setParent, whenSome_modify]
    rw [← hh₁, ← hh₂, h₂x, RbNode.sided_parent, ← hh₃, hrel]
    rfl
  refine ⟨_, hrun, rfl, rfl, ?_, ?_, ?_, ?_, ?_⟩
  · dsimp only
    rw [poke_self, poke_of_ne (by simpa using hyx), h₄o x hpx, h₃o x hxy, h₂x,
      RbNode.sided_setParent]
  · dsimp only
    rw [poke_of_ne (by simpa using hxy), poke_self, h₄o y hpy, h₃y, RbNode.sided_setChild]
  · intro a ha
    have hax : a ≠ x := by rintro rfl; exact hmx ha
    have hay : a ≠ y := by rintro rfl; exact hmy ha
    dsimp only
    rw [poke_of_ne (by simpa using Ne.symm hax), poke_of_ne (by simpa using Ne.symm hay),
      h₄o a (hmp a ha), h₃o a hay, h₂m a ha]
  · intro a ha
    have hax : a ≠ x := by rintro rfl; exact hpx ha
    have hay : a ≠ y := by rintro rfl; exact hpy ha
    dsimp only
    rw [poke_of_ne (by simpa using Ne.symm hax), poke_of_ne (by simpa using Ne.symm hay),
      h₄p a ha, h₃o a hay, h₂o a hax fun hm => hmp a hm ha]
  · intro a hax hay ham hap
    dsimp only
    rw [poke_of_ne (by simpa using Ne.symm hax), poke_of_ne (by simpa using Ne.symm hay),
      h₄o a hap, h₃o a hay, h₂o a hax ham]

/-- Rotating at a stored subtree. -/
lemma rotate_spec {s : TreeMem} {k : Ctx Addr} {d : Dir} {c c' : Color} {l m r : Shape Addr}
    {x y : Addr} (hs : Repr s (plug k (branch d c l x (branch d c' m y r)))) :
    ∃ s', s.rotate d (some x) = some s'
      ∧ Repr s' (plug k (branch d c' (branch d c l x m) y r))
      ∧ SameOutside (plug k (branch d c l x (branch d c' m y r))).toList s s' := by
  obtain ⟨hroot, hlink, hnd⟩ := hs
  obtain ⟨hck, hl⟩ := linked_plug.mp hlink
  obtain ⟨hx, hll, hly⟩ := linked_branch.mp hl
  obtain ⟨hy, hlm, hlr⟩ := linked_branch.mp hly
  obtain ⟨hnt, hdisj, hkn⟩ := nodup_plug hnd
  obtain ⟨hxl, hxy, hnl, hny, hlxy⟩ := (nodup_branch ..).mp hnt
  obtain ⟨hym, hyr, hnm, hnr, hmr⟩ := (nodup_branch ..).mp hny
  simp only [mem_toList_branch, not_or] at hxy hlxy hdisj
  simp only [root_branch] at hck hx
  obtain ⟨hxney, hxm, hxr⟩ := hxy
  have hxk : x ∉ ctxLabels k := fun hm => (hdisj x hm).1 rfl
  have hyk : y ∉ ctxLabels k := fun hm => (hdisj y hm).2.2.1 rfl
  obtain ⟨s', hrun, hlen, hroot', hx', hy', hm', hp', ho'⟩ := rotate_writes hx hy hck hxney hxk
    hyk (fun he => hxm (root_mem he)) (fun he => hym (root_mem he))
    fun a ha he => (hdisj a ha).2.2.2.1 (root_mem he)
  have hpar : ∀ {a}, a ∉ ctxLabels k → k.parent ≠ some a := fun ha he => ha (parent_mem he)
  refine ⟨s', hrun, ⟨?_, linked_plug.mpr ⟨?_, linked_branch.mpr ⟨?_, ?_, ?_⟩⟩, ?_⟩, ?_, hlen⟩
  · rw [hroot', root_plug, root_branch]
    rw [root_plug, root_branch] at hroot
    cases k with
    | nil => rfl
    | cons f k => exact hroot
  · rw [root_branch]
    refine hck.rehang hkn (fun a ha => hp' a ha) fun a ha hpa => ?_
    obtain ⟨h1, -, h2, h3, -⟩ := hdisj a ha
    exact ho' a h1 h2 (fun he => h3 (root_mem he)) hpa
  · rw [root_branch, hy']
  · rw [linked_branch]
    refine ⟨hx', hll.congr fun a ha => ?_, hlm.reparent hnm hm' fun a ha hra => ?_⟩
    · obtain ⟨h1, h2, -⟩ := hlxy a ha
      refine ho' a ?_ h1 (fun he => h2 (root_mem he)) (hpar fun hk => (hdisj a hk).2.1 ha)
      rintro rfl
      exact hxl ha
    · refine ho' a ?_ ?_ hra (hpar fun hk => (hdisj a hk).2.2.2.1 ha)
      · rintro rfl; exact hxm ha
      · rintro rfl; exact hym ha
  · refine hlr.congr fun a ha => ho' a ?_ ?_ ?_ (hpar fun hk => (hdisj a hk).2.2.2.2 ha)
    · rintro rfl; exact hxr ha
    · rintro rfl; exact hyr ha
    · exact fun he => hmr a (root_mem he) ha
  · rwa [toList_plug_congr k (toList_rotate d c c' c' c l m r x y)]
  · intro a ha
    simp only [mem_toList_plug, mem_toList_branch, not_or] at ha
    obtain ⟨hak, hax, -, hay, ham, -⟩ := ha
    exact ho' a hax hay (fun he => ham (root_mem he)) (hpar hak)

end TreeMem

/-! ### Reading a stored tree -/

namespace Repr

variable {s : TreeMem} {k : Ctx Addr} {t : Shape Addr}

lemma heap_branch {d : Dir} {c : Color} {l r : Shape Addr} {a : Addr}
    (hs : Repr s (plug k (branch d c l a r))) :
    s.heap a = RbNode.sided d k.parent l.root r.root c :=
  (linked_branch.mp (linked_plug.mp hs.linked).2).1

/-- The colour read at the root of a stored subtree. -/
lemma colorOf_root (hs : Repr s (plug k t)) : s.colorOf t.root = t.color := by
  cases t with
  | nil => rfl
  | node c l a r =>
      have h := heap_branch (d := .left) hs
      show (s.heap a).color = c
      rw [h, RbNode.sided_color]

/-- The parent read at the root of a stored subtree. -/
lemma parent_root (hs : Repr s (plug k t)) {a : Addr} (ha : t.root = some a) :
    (s.heap a).parent = k.parent := by
  cases t with
  | nil => simp at ha
  | node c l b r =>
      have hab : b = a := by simpa using ha
      rw [← hab, heap_branch (d := .left) hs, RbNode.sided_parent]

/-- The children read at the root of a stored subtree. -/
lemma childOf_root {d : Dir} {c : Color} {l r : Shape Addr} {a : Addr}
    (hs : Repr s (plug k (branch d c l a r))) :
    s.childOf d (some a) = l.root ∧ s.childOf d.flip (some a) = r.root := by
  have h := hs.heap_branch
  constructor
  · show (s.heap a).child d = l.root
    rw [h, RbNode.sided_child]
  · show (s.heap a).child d.flip = r.root
    rw [h, RbNode.sided_child_flip]

/-- The root pointers of the two subtrees of a node differ unless both are empty. -/
lemma root_ne_sib {d : Dir} {c : Color} {l r : Shape Addr} {a : Addr}
    (hs : Repr s (plug k (branch d c l a r))) (h : l ≠ .nil ∨ r ≠ .nil) : l.root ≠ r.root := by
  obtain ⟨hnt, -, -⟩ := nodup_plug hs.nodup
  obtain ⟨-, -, -, -, hlr⟩ := (nodup_branch ..).mp hnt
  intro he
  cases hl : l.root with
  | none =>
      rw [hl] at he
      exact h.elim (fun h => h (root_eq_none.mp hl)) fun h => h (root_eq_none.mp he.symm)
  | some b => exact hlr b (root_mem hl) (root_mem (he ▸ hl))

end Repr

/-! ### Transforming a stored tree -/

/-- `s` stores the shape `t`, whose in-order sequence is `l`, and differs from `s₀` only in the
links of the nodes of `l`. -/
structure Holds (s₀ : TreeMem) (l : List Addr) (s : TreeMem) (t : Shape Addr) : Prop where
  repr : Repr s t
  toList : t.toList = l
  same : SameOutside l s₀ s

namespace Holds

variable {s₀ s : TreeMem} {L : List Addr} {k : Ctx Addr} {d : Dir} {c c' : Color}
  {l m r t : Shape Addr} {x y a : Addr}

lemma of_repr (h : Repr s t) : Holds s t.toList s t := ⟨h, rfl, SameOutside.refl _ _⟩

lemma setColor (h : Holds s₀ L s (plug k (branch d c l a r))) (c' : Color) :
    ∃ s', s.setColor (some a) c' = some s' ∧ Holds s₀ L s' (plug k (branch d c' l a r)) := by
  obtain ⟨s', hrun, hrepr, hsame⟩ := TreeMem.setColor_spec h.repr c'
  refine ⟨s', hrun, hrepr, ?_, h.same.trans (h.toList ▸ hsame)⟩
  rw [← h.toList]
  exact toList_plug_congr k (toList_recolor d c' c l r a)

lemma rotate (h : Holds s₀ L s (plug k (branch d c l x (branch d c' m y r)))) :
    ∃ s', s.rotate d (some x) = some s'
      ∧ Holds s₀ L s' (plug k (branch d c' (branch d c l x m) y r)) := by
  obtain ⟨s', hrun, hrepr, hsame⟩ := TreeMem.rotate_spec h.repr
  refine ⟨s', hrun, hrepr, ?_, h.same.trans (h.toList ▸ hsame)⟩
  rw [← h.toList]
  exact toList_plug_congr k (toList_rotate d c c' c' c l m r x y)

/-- The mirror image of `rotate`, stated on the same side. -/
lemma rotate_flip (h : Holds s₀ L s (plug k (branch d c (branch d c' l x m) y r))) :
    ∃ s', s.rotate d.flip (some y) = some s'
      ∧ Holds s₀ L s' (plug k (branch d c' l x (branch d c m y r))) := by
  rw [← branch_flip d c, ← branch_flip d c'] at h
  obtain ⟨s', hrun, hs'⟩ := h.rotate
  rw [branch_flip, branch_flip] at hs'
  exact ⟨s', hrun, hs'⟩

/-- Colouring the root black, as both fix-ups end. -/
lemma blackenRoot (h : Holds s₀ L s t) :
    ∃ s', (s.whenSome s.root fun s => s.setColor s.root .black) = some s'
      ∧ Holds s₀ L s' t.blacken := by
  rw [h.repr.root]
  cases t with
  | nil => exact ⟨s, rfl, h⟩
  | node c u b v =>
      obtain ⟨s', hrun, hs'⟩ := setColor (k := []) (d := .left) h .black
      refine ⟨s', ?_, hs'⟩
      have hroot : s.root = some b := h.repr.root
      simp only [TreeMem.whenSome, root_node, hroot, reduceCtorEq, ite_false]
      exact hrun

end Holds

/-- A well-formed tree with in-order sequence `l`: it stores a red-black shape, `len` counts its
nodes, and `l` is strictly increasing under `cmp`. -/
structure TreeMem.Wf (cmp : Addr → Addr → Ordering) (s : TreeMem) (l : List Addr) : Prop where
  shape : ∃ t, Repr s t ∧ t.IsRB ∧ t.toList = l
  len : s.len = l.length
  sorted : Increasing cmp l

/-- Well-formedness depends only on the nodes of the tree and on their order. -/
lemma TreeMem.Wf.congr {cmp cmp' : Addr → Addr → Ordering} {s s' : TreeMem} {l : List Addr}
    (h : s.Wf cmp l) (ht : s'.toRBTree = s.toRBTree) (hh : ∀ a ∈ l, s'.heap a = s.heap a)
    (hc : ∀ a ∈ l, ∀ b ∈ l, cmp' a b = cmp a b) : s'.Wf cmp' l := by
  obtain ⟨⟨t, hrepr, hrb, rfl⟩, hlen, hsorted⟩ := h
  refine ⟨⟨t, ⟨?_, hrepr.linked.congr hh, hrepr.nodup⟩, hrb, rfl⟩, ?_, hsorted.congr hc⟩
  · rw [ht, hrepr.root]
  · rw [ht, hlen]

end Rtsched

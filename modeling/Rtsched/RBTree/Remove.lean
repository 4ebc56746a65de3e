import Rtsched.RBTree.Navigate
import Rtsched.RBTree.RemoveFixup

/-!
`RBTree::remove` and `pop_first`: the node is unlinked, its successor taking its place when it
has two children, and the balance laws are restored.

* `transplant_spec`: the subtree at a node is replaced by another shape.
* `detachSuccessor_spec`, `replaceBy_spec`: the two halves of the case with two children.
* `remove_spec`, `popFirst_spec`: the in-order sequence without the node, whose links are reset,
  all nodes outside the tree being untouched.
-/

namespace Rtsched

open RedBlack RedBlack.Shape RedBlack.Ctx

namespace TreeMem

variable {s : TreeMem} {k m : Ctx Addr} {c cy : Color} {t l r yr R : Shape Addr} {e u y : Addr}

/-! ### Replacing a subtree -/

/-- The memory after `transplant` has put the subtree at `v` into the hole of `k`. -/
def graft (s : TreeMem) (k : Ctx Addr) (v : Ptr) : TreeMem :=
  { s.hang k v with heap := poke (s.hang k v).heap v (RbNode.setParent k.parent) }

section graft

variable {q v : Ptr} {a : Addr}

lemma graft_heap_root (hv : v = some a) (hk : k.parent ≠ some a) :
    (s.graft k v).heap a = (s.heap a).setParent k.parent := by
  show poke (poke _ _ _) _ _ a = _
  rw [poke_of_eq hv, poke_of_ne hk]

lemma graft_heap_parent (hk : k.parent = some a) (hv : v ≠ some a) :
    (s.graft k v).heap a = (s.heap a).setChild (ctxDir k) v := by
  show poke (poke _ _ _) _ _ a = _
  rw [poke_of_ne hv, poke_of_eq hk]

lemma graft_heap_of_ne (hk : k.parent ≠ some a) (hv : v ≠ some a) :
    (s.graft k v).heap a = s.heap a := by
  show poke (poke _ _ _) _ _ a = _
  rw [poke_of_ne hv, poke_of_ne hk]

lemma graft_root (h : s.root = ctxRoot k q) : (s.graft k v).root = ctxRoot k v := by
  cases k with
  | nil => rfl
  | cons f k => exact h

end graft

lemma transplant_eq (v : Ptr) (hu : (s.heap u).parent = k.parent)
    (hck : CtxLinked s.heap k (some u)) (huk : u ∉ ctxLabels k) :
    s.transplant (some u) v = some (s.graft k v) := by
  have hu' : ((s.hang k v).heap u).parent = k.parent := by
    show (poke _ _ _ u).parent = _
    rw [poke_of_ne fun he => huk (parent_mem he), hu]
  rw [transplant, relink_eq .left v hu hck huk]
  cases v with
  | none => rfl
  | some b =>
      simp only [Option.bind_eq_bind, Option.bind_some, whenSome_some, deref_some, hu', setParent,
        modify_some, graft]

/-- A node with at most one child is not among the labels that remain without it. -/
lemma nodup_plug_spine {d : Dir} (h : (plug k (branch d cy .nil y yr)).toList.Nodup) :
    y ∉ (plug k yr).toList ∧ (plug k yr).toList.Nodup := by
  obtain ⟨hnt, hdisj, -⟩ := nodup_plug h
  obtain ⟨-, hyr, -⟩ := (nodup_branch ..).mp hnt
  have hyk : y ∉ ctxLabels k := fun hm => hdisj y hm (by simp [mem_toList_branch])
  refine ⟨by simp [mem_toList_plug, hyk, hyr], ?_⟩
  rw [toList_plug] at h ⊢
  refine h.sublist (List.Sublist.append_left (List.Sublist.append_right ?_ _) _)
  cases d <;> simp [branch, toList]

/-- Replacing the subtree at `u` by a shape stored elsewhere, `u` and its other descendants being
left to themselves. -/
lemma transplant_spec {q : Ptr} (hs : Repr s (plug k t)) (hu : t.root = some u)
    (hr : Linked s.heap q r) (hnd : (plug k r).toList.Nodup) :
    ∃ s', s.transplant (some u) r.root = some s' ∧ Repr s' (plug k r)
      ∧ SameOutside (plug k r).toList s s' := by
  obtain ⟨hroot, hlink, hnt⟩ := hs
  obtain ⟨hck, -⟩ := linked_plug.mp hlink
  have hpar := Repr.parent_root ⟨hroot, hlink, hnt⟩ hu
  obtain ⟨-, hdisj, hkn⟩ := nodup_plug hnt
  obtain ⟨hnr, hkr, -⟩ := nodup_plug hnd
  have huk : u ∉ ctxLabels k := fun hm => hdisj u hm (root_mem hu)
  rw [hu] at hck
  refine ⟨_, transplant_eq r.root hpar hck huk, ⟨?_, linked_plug.mpr ⟨?_, ?_⟩, hnd⟩, ?_, rfl⟩
  · rw [root_plug] at hroot ⊢
    exact graft_root hroot
  · refine hck.rehang hkn (fun a ha => ?_) fun a ha hpa => ?_
    · exact graft_heap_parent ha fun he => hkr a (parent_mem ha) (root_mem he)
    · exact graft_heap_of_ne hpa fun he => hkr a ha (root_mem he)
  · refine hr.reparent hnr (fun a ha => ?_) fun a ha hra => ?_
    · exact graft_heap_root ha fun he => hkr a (parent_mem he) (root_mem ha)
    · exact graft_heap_of_ne (fun he => hkr a (parent_mem he) ha) hra
  · intro a ha
    rw [mem_toList_plug, not_or] at ha
    exact graft_heap_of_ne (fun he => ha.1 (parent_mem he)) fun he => ha.2 (root_mem he)

/-! ### A node with two children -/

/-- The memory between the two halves: `e` still hangs in the context `k` with its left subtree,
and the successor `y` has taken over what remains of the right one. -/
structure Detached (s : TreeMem) (k : Ctx Addr) (c : Color) (l : Shape Addr) (e : Addr)
    (R : Shape Addr) (y : Addr) : Prop where
  root : s.root = ctxRoot k (some e)
  ctx : CtxLinked s.heap k (some e)
  parent : (s.heap e).parent = k.parent
  left : (s.heap e).left = l.root
  color : (s.heap e).color = c
  linked : Linked s.heap (some e) l
  right : (s.heap y).right = R.root
  rest : Linked s.heap (some y) R

/-- `replaceBy` puts the successor in the place of `e`. -/
lemma replaceBy_spec (h : Detached s k c l e R y) (hl : l ≠ .nil)
    (hnd : (plug k (branch .left c l y R)).toList.Nodup)
    (he : e ∉ (plug k (branch .left c l y R)).toList) :
    ∃ s', s.replaceBy (some e) (some y) = some s'
      ∧ Repr s' (plug k (branch .left c l y R))
      ∧ SameOutside (plug k (branch .left c l y R)).toList s s' := by
  obtain ⟨b, hb⟩ : ∃ b, l.root = some b := by
    cases hlr : l.root with
    | none => exact absurd (root_eq_none.mp hlr) hl
    | some b => exact ⟨b, rfl⟩
  obtain ⟨hnt, hdisj, hkn⟩ := nodup_plug hnd
  obtain ⟨hyl, hyR, hnl, hnR, hlR⟩ := (nodup_branch ..).mp hnt
  simp only [mem_toList_plug, mem_toList_branch, not_or] at he hdisj
  obtain ⟨hek, hey, hel, heR⟩ := he
  have hbl : b ∈ l.toList := root_mem hb
  have hpar : ∀ {a}, a ∉ ctxLabels k → k.parent ≠ some a := fun ha he => ha (parent_mem he)
  have hyk : y ∉ ctxLabels k := fun hm => (hdisj y hm).1 rfl
  have hbk : b ∉ ctxLabels k := fun hm => (hdisj b hm).2.1 hbl
  have hyb : y ≠ b := by rintro rfl; exact hyl hbl
  have heb : e ≠ b := by rintro rfl; exact hel hbl
  -- the transplant has written to `y` and to the parent of the hole
  have htr := transplant_eq (some y) h.parent h.ctx hek
  set s₁ := s.graft k (some y) with hs₁
  have h₁y : s₁.heap y = (s.heap y).setParent k.parent := graft_heap_root rfl (hpar hyk)
  have h₁o : ∀ a, a ≠ y → a ∉ ctxLabels k → s₁.heap a = s.heap a := fun a hay hak =>
    graft_heap_of_ne (hpar hak) (by simpa using Ne.symm hay)
  have h₁e : s₁.heap e = s.heap e := h₁o e hey hek
  set h₂ := poke s₁.heap (some y) (RbNode.setChild .left l.root) with hh₂
  set h₃ := poke h₂ l.root (RbNode.setParent (some y)) with hh₃
  have h₂y : (h₂ y).left = l.root := by rw [hh₂, poke_self]; rfl
  have h₃e : h₃ e = s.heap e := by
    rw [hh₃, hb, poke_of_ne (by simpa using heb.symm), hh₂,
      poke_of_ne (by simpa using Ne.symm hey), h₁e]
  have hrun : s.replaceBy (some e) (some y) = some { s₁ with
      heap := poke h₃ (some y) (RbNode.setColor c) } := by
    simp only [replaceBy, htr, Option.bind_eq_bind, Option.bind_some, deref_some, h₁e, h.left,
      setChild, setParent, modify_some, ← hh₂, h₂y]
    rw [hb, modify_some, ← hb, Option.bind_some, ← hh₃]
    simp only [h₃e, h.color, setColor, modify_some]
  -- what the final heap holds at each node
  have hfy : poke h₃ (some y) (RbNode.setColor c) y
      = RbNode.sided .left k.parent l.root R.root c := by
    rw [poke_self, hh₃, hb, poke_of_ne (by simpa using hyb.symm), hh₂, poke_self, h₁y, hb]
    simp [RbNode.setParent, RbNode.setChild, RbNode.setColor, RbNode.sided, h.right]
  have hfb : poke h₃ (some y) (RbNode.setColor c) b = (s.heap b).setParent (some y) := by
    rw [poke_of_ne (by simpa using hyb), hh₃, poke_of_eq hb, hh₂,
      poke_of_ne (by simpa using hyb), h₁o b hyb.symm hbk]
  have hfo : ∀ a, a ≠ y → a ≠ b →
      poke h₃ (some y) (RbNode.setColor c) a = s₁.heap a := fun a hay hab => by
    have hya : some y ≠ some a := by simpa using Ne.symm hay
    rw [poke_of_ne hya, hh₃, hb, poke_of_ne (by simpa using Ne.symm hab), hh₂, poke_of_ne hya]
  have hfo' : ∀ a, a ∉ ctxLabels k → a ≠ y → a ≠ b →
      poke h₃ (some y) (RbNode.setColor c) a = s.heap a := fun a hak hay hab => by
    rw [hfo a hay hab, h₁o a hay hak]
  have hkne : ∀ a ∈ ctxLabels k, a ≠ y ∧ a ≠ b := fun a ha =>
    ⟨(hdisj a ha).1, by rintro rfl; exact (hdisj a ha).2.1 hbl⟩
  refine ⟨_, hrun, ⟨?_, linked_plug.mpr ⟨?_, linked_branch.mpr ⟨hfy, ?_, ?_⟩⟩, hnd⟩, ?_, rfl⟩
  · rw [root_plug, root_branch]
    exact graft_root h.root
  · rw [root_branch]
    refine h.ctx.rehang hkn (fun a ha => ?_) fun a ha hpa => ?_
    · obtain ⟨h1, h2⟩ := hkne a (parent_mem ha)
      exact (hfo a h1 h2).trans (graft_heap_parent ha (by simpa using Ne.symm h1))
    · obtain ⟨h1, h2⟩ := hkne a ha
      exact (hfo a h1 h2).trans (graft_heap_of_ne hpa (by simpa using Ne.symm h1))
  · refine h.linked.reparent hnl (fun a ha => ?_) fun a ha hra => ?_
    · obtain rfl : b = a := by simpa [hb] using ha
      exact hfb
    · refine hfo' a (fun hk => (hdisj a hk).2.1 ha) ?_ ?_
      · rintro rfl; exact hyl ha
      · rintro rfl; exact hra hb
  · refine h.rest.congr fun a ha => hfo' a (fun hk => (hdisj a hk).2.2 ha) ?_ ?_
    · rintro rfl; exact hyR ha
    · rintro rfl; exact hlR a hbl ha
  · intro a ha
    simp only [mem_toList_plug, mem_toList_branch, not_or] at ha
    exact hfo' a ha.1 ha.2.1 (by rintro rfl; exact ha.2.2.1 hbl)

/-- The successor of `e` taken out of the right subtree, when it is the right child itself. -/
lemma detachSuccessor_child
    (hs : Repr s (plug k (branch .left c l e (branch .left cy .nil y yr)))) :
    s.detachSuccessor (some e) (some y) = some (s, some y) ∧ Detached s k c l e yr y := by
  obtain ⟨hck, hlt⟩ := linked_plug.mp hs.linked
  obtain ⟨he, hll, hlr⟩ := linked_branch.mp hlt
  obtain ⟨hy, -, hyr⟩ := linked_branch.mp hlr
  have hsame : poke s.heap yr.root (RbNode.setParent (some y)) = s.heap := by
    funext a
    by_cases ha : yr.root = some a
    · have hpar : (s.heap a).parent = some y := by
        refine Repr.parent_root (k := ⟨.right, cy, y, .nil⟩ :: ⟨.right, c, e, l⟩ :: k) ?_ ha
        exact hs
      rw [poke_of_eq ha, RbNode.setParent, ← hpar]
    · rw [poke_of_ne ha]
  refine ⟨?_, ?_, hck, ?_, ?_, ?_, hll, ?_, hyr⟩
  · have hyp : (s.heap y).parent = some e := by rw [hy, RbNode.sided_parent]
    have hyrt : (s.heap y).right = yr.root := by rw [hy]; rfl
    simp only [detachSuccessor, deref_some, Option.bind_eq_bind, Option.bind_some, hyp, hyrt,
      if_true, setParent, whenSome_modify, hsame]
  · rw [hs.root, root_plug, root_branch]
  · rw [he, RbNode.sided_parent]
  · rw [he]; rfl
  · rw [he, RbNode.sided_color]
  · rw [hy]; rfl

/-- The successor of `e` taken out of the right subtree, when it lies deeper in it. -/
lemma detachSuccessor_deep {f : Frame Addr}
    (hs : Repr s (plug k (branch .left c l e (plug (f :: m) (branch .left cy .nil y yr))))) :
    ∃ s', s.detachSuccessor (some e) (some y) = some (s', some f.label)
      ∧ Detached s' k c l e (plug (f :: m) yr) y
      ∧ SameOutside (plug k (branch .left c l e (plug (f :: m) (branch .left cy .nil y yr)))).toList
        s s' := by
  set K : Ctx Addr := (f :: m) ++ ⟨.right, c, e, l⟩ :: k with hK
  have hplug : ∀ t : Shape Addr, plug K t = plug k (branch .left c l e (plug (f :: m) t)) :=
    fun t => by rw [hK, plug_append]; rfl
  rw [← hplug] at hs ⊢
  obtain ⟨hyT, hnT⟩ := nodup_plug_spine hs.nodup
  obtain ⟨-, hlt⟩ := linked_plug.mp hs.linked
  obtain ⟨hy, -, hyr⟩ := linked_branch.mp hlt
  have hyp : (s.heap y).parent = some f.label := by rw [hy, RbNode.sided_parent]; rfl
  have hyrt : (s.heap y).right = yr.root := by rw [hy]; rfl
  obtain ⟨s₁, hrun₁, hs₁, hsame₁⟩ := transplant_spec hs (root_branch ..) hyr hnT
  rw [hplug] at hs₁ hnT hyT
  -- the remaining right subtree is below `e` still, and is moved below `y`
  obtain ⟨hck, hle⟩ := linked_plug.mp hs₁.linked
  obtain ⟨he, hll, hlR⟩ := linked_branch.mp hle
  obtain ⟨hnt, hdisj, hkn⟩ := nodup_plug hnT
  obtain ⟨hel, heR, hnl, hnR, hlR'⟩ := (nodup_branch ..).mp hnt
  simp only [mem_toList_plug (k := k), mem_toList_branch, not_or] at hyT hdisj
  obtain ⟨hyk, hye, hyl, hyR⟩ := hyT
  obtain ⟨b, hb⟩ : ∃ b, (plug (f :: m) yr).root = some b := by
    obtain ⟨b, -, hb⟩ := ctxRoot_mem (List.cons_ne_nil f m) yr.root
    exact ⟨b, by rw [root_plug, hb]⟩
  have hbR : b ∈ (plug (f :: m) yr).toList := root_mem hb
  have hyb : y ≠ b := by rintro rfl; exact hyR hbR
  have heb : e ≠ b := by rintro rfl; exact heR hbR
  have hef : some f.label ≠ some e := by
    intro h
    have hfe : f.label = e := by simpa using h
    refine heR (mem_toList_plug.mpr (Or.inl ?_))
    exact hfe ▸ mem_ctxLabels_cons.mpr (Or.inl rfl)
  set h₂ := poke s₁.heap (some y) (RbNode.setChild .right (some b)) with hh₂
  set h₃ := poke h₂ (some b) (RbNode.setParent (some y)) with hh₃
  have h₃o : ∀ a, a ≠ y → a ≠ b → h₃ a = s₁.heap a := fun a hay hab => by
    rw [hh₃, poke_of_ne (by simpa using Ne.symm hab), hh₂, poke_of_ne (by simpa using Ne.symm hay)]
  have h₃b : h₃ b = (s₁.heap b).setParent (some y) := by
    rw [hh₃, poke_self, hh₂, poke_of_ne (by simpa using hyb)]
  have h₂y : (h₂ y).right = some b := by rw [hh₂, poke_self]; rfl
  have h₃e : h₃ e = RbNode.sided .left k.parent l.root (some b) c := by
    rw [h₃o e (Ne.symm hye) heb, he, hb]
  have hrun : s.detachSuccessor (some e) (some y) =
      some ({ s₁ with heap := h₃ }, some f.label) := by
    have her : (s₁.heap e).right = some b := by rw [he, hb]; rfl
    simp only [detachSuccessor, deref_some, Option.bind_eq_bind, Option.bind_some, hyp, hyrt, hef,
      if_false, hrun₁, her, setChild, setParent, modify_some, ← hh₂, h₂y, ← hh₃]
  refine ⟨_, hrun, ⟨?_, ?_, ?_, ?_, ?_, ?_, ?_, ?_⟩, ?_, hsame₁.len⟩
  · rw [← root_branch .left c l (plug (f :: m) yr) e, ← root_plug]
    exact hs₁.root
  · rw [root_branch] at hck
    refine hck.congr fun a ha => h₃o a ?_ ?_
    · rintro rfl; exact hyk ha
    · rintro rfl; exact (hdisj a ha).2.2 hbR
  · show (h₃ e).parent = _
    rw [h₃e, RbNode.sided_parent]
  · show (h₃ e).left = _
    rw [h₃e]; rfl
  · show (h₃ e).color = _
    rw [h₃e, RbNode.sided_color]
  · refine hll.congr fun a ha => h₃o a ?_ ?_
    · rintro rfl; exact hyl ha
    · rintro rfl; exact hlR' a ha hbR
  · show (h₃ y).right = _
    rw [hh₃, poke_of_ne (by simpa using hyb.symm), h₂y, hb]
  · refine hlR.reparent hnR (fun a ha => ?_) fun a ha hra => h₃o a ?_ ?_
    · obtain rfl : b = a := Option.some.inj (hb.symm.trans ha)
      exact h₃b
    · rintro rfl; exact hyR ha
    · rintro rfl; exact hra hb
  · intro a ha
    have hay : a ≠ y := by
      rintro rfl
      exact ha (mem_toList_plug.mpr (Or.inr (by simp [mem_toList_branch])))
    have haT : a ∉ (plug K yr).toList := fun hm => ha (by
      rw [mem_toList_plug] at hm ⊢
      rw [mem_toList_branch]
      tauto)
    rw [← hsame₁.heap a haT]
    refine h₃o a hay ?_
    rintro rfl
    refine haT ?_
    rw [hplug, mem_toList_plug, mem_toList_branch]
    exact Or.inr (Or.inr (Or.inr hbR))

/-- Both cases of the first half together: `x_parent` is the parent of the place the successor
leaves, seen once the successor has taken the place of `e`. -/
lemma detachSuccessor_spec
    (hs : Repr s (plug k (branch .left c l e (plug m (branch .left cy .nil y yr))))) :
    ∃ s', s.detachSuccessor (some e) (some y) = some (s', parent (m ++ ⟨.right, c, y, l⟩ :: k))
      ∧ Detached s' k c l e (plug m yr) y
      ∧ SameOutside (plug k (branch .left c l e (plug m (branch .left cy .nil y yr)))).toList
        s s' := by
  cases m with
  | nil =>
      obtain ⟨hrun, hd⟩ := detachSuccessor_child hs
      exact ⟨s, hrun, hd, SameOutside.refl ..⟩
  | cons f m => exact detachSuccessor_deep hs

/-- The in-order sequence around a node `e` whose right subtree has the leftmost node `y`. -/
lemma toList_spine (hdir : ∀ f ∈ m, f.dir = .left) :
    (plug m (branch .left cy .nil y yr)).toList = y :: (plug m yr).toList := by
  simp [toList_plug, before_of_left hdir, branch, toList]

/-! ### Removal -/

/-- The balance of a tree that has lost a node of colour `c` above the subtree `t`. -/
def Short (c : Color) (k : Ctx Addr) (t : Shape Addr) : Prop :=
  match c with
  | .red => (plug k t).IsRB
  | .black => t.NoRedRed ∧ ∃ n, t.BlackHeight n ∧ Bal (n + 1) k

lemma short_of_isRB {d : Dir} (h : (plug k (branch d c .nil e t)).IsRB) : Short c k t := by
  obtain ⟨n, hk, hn, hr, htop⟩ := bal_of_plug h
  obtain ⟨-, -, htr⟩ := (noRedRed_branch ..).mp hr
  cases c with
  | red =>
      obtain ⟨-, ht⟩ := (blackHeight_red ..).mp hn
      exact hk.plug ht htr (Or.inr (htop.resolve_left (by simp)))
  | black =>
      cases n with
      | zero => exact absurd hn (by simp)
      | succ n => exact ⟨htr, n, ((blackHeight_black_succ ..).mp hn).2, hk⟩

lemma short_relabel {d : Dir} {a b : Addr} (h : Short cy (m ++ ⟨d, c, a, l⟩ :: k) t) :
    Short cy (m ++ ⟨d, c, b, l⟩ :: k) t := by
  cases cy with
  | red =>
      obtain ⟨n, hk, hn, hr, htop⟩ := bal_of_plug h
      rw [bal_relabel (b := b)] at hk
      rw [topBlack_relabel (b := b)] at htop
      exact hk.plug hn hr htop
  | black =>
      obtain ⟨hr, n, hn, hk⟩ := h
      exact ⟨hr, n, hn, (bal_relabel ..).mp hk⟩

/-- What `unlink` leaves: the in-order sequence without `e`, and the place where a node of the
returned colour is missing. -/
lemma unlink_spec (hs : Repr s (plug k (node c l e r))) (hrb : (plug k (node c l e r)).IsRB)
    (hlen : s.len = (plug k (node c l e r)).toList.length) :
    ∃ s' K cy yr, s.unlink (some e) = some (s', cy, yr.root, parent K) ∧ Repr s' (plug K yr)
      ∧ (plug K yr).toList = k.before ++ (l.toList ++ r.toList) ++ k.after
      ∧ SameOutside (plug k (node c l e r)).toList s s' ∧ Short cy K yr := by
  have he : s.heap e = ⟨k.parent, l.root, r.root, c⟩ := Repr.heap_branch (d := .left) hs
  by_cases hl : l = .nil
  · subst hl
    obtain ⟨-, hlt⟩ := linked_plug.mp hs.linked
    obtain ⟨-, hnr⟩ := nodup_plug_spine (d := .left) hs.nodup
    obtain ⟨s', hrun, hs', hsame⟩ := transplant_spec hs rfl hlt.2.2 hnr
    refine ⟨s', k, c, r, ?_, hs', ?_, hsame.mono ?_, short_of_isRB (d := .left) hrb⟩
    · simp [unlink, he, hrun]
    · simp [toList_plug, toList]
    · intro a ha
      rw [mem_toList_plug] at ha ⊢
      simp only [toList, List.mem_append, List.mem_cons]
      tauto
  · by_cases hr : r = .nil
    · subst hr
      obtain ⟨-, hlt⟩ := linked_plug.mp hs.linked
      obtain ⟨-, hnl⟩ := nodup_plug_spine (d := .right) hs.nodup
      obtain ⟨s', hrun, hs', hsame⟩ := transplant_spec hs rfl hlt.2.1 hnl
      refine ⟨s', k, c, l, ?_, hs', ?_, hsame.mono ?_, short_of_isRB (d := .right) hrb⟩
      · simp [unlink, he, hrun, hl]
      · simp [toList_plug, toList]
      · intro a ha
        rw [mem_toList_plug] at ha ⊢
        simp only [toList, List.mem_append, List.mem_cons]
        tauto
    · -- two children: `y` is the leftmost node of `r`
      obtain ⟨m, cy, y, yr, rfl, hdir⟩ := exists_spine .left hr
      set R := plug m (branch .left cy .nil y yr) with hR
      have hlist : (plug k (branch .left c l y (plug m yr))).toList
          = k.before ++ (l.toList ++ R.toList) ++ k.after := by
        rw [hR, toList_spine hdir, toList_plug k]
        simp [branch, toList]
      have hT : (plug k (node c l e R)).toList
          = (k.before ++ l.toList) ++ e :: (R.toList ++ k.after) := by
        simp [toList_plug k, toList]
      have hnd : e ∉ (plug k (branch .left c l y (plug m yr))).toList
          ∧ (plug k (branch .left c l y (plug m yr))).toList.Nodup := by
        have h := hs.nodup
        rw [hT, List.nodup_middle, List.nodup_cons] at h
        rw [hlist]
        simpa using h
      have hsub : ∀ a ∈ (plug k (branch .left c l y (plug m yr))).toList,
          a ∈ (plug k (node c l e R)).toList := by
        intro a ha
        rw [hlist] at ha
        rw [hT]
        simp only [List.mem_append, List.mem_cons] at ha ⊢
        tauto
      have hmin : s.minimum (s.len + 1) R.root = some (some y) := by
        have hfuel : R.toList.length ≤ s.len + 1 := by
          rw [hlen, hT]
          simp
          omega
        have h := outermost_spec (s := s) (d := .left) (k := ⟨.right, c, e, l⟩ :: k) (t := R) hs
          hfuel
        rw [minimum, h, hR, toList_spine hdir]
        rfl
      have hy : s.heap y = RbNode.sided .left (parent (m ++ ⟨.right, c, e, l⟩ :: k)) none yr.root
          cy := by
        refine Repr.heap_branch (k := m ++ ⟨.right, c, e, l⟩ :: k) (l := .nil) ?_
        rw [plug_append]
        exact hs
      obtain ⟨s₁, hrun₁, hd, hsame₁⟩ := detachSuccessor_spec hs
      obtain ⟨s₂, hrun₂, hs₂, hsame₂⟩ := replaceBy_spec hd hl hnd.2 hnd.1
      have hplug : plug (m ++ ⟨.right, c, y, l⟩ :: k) yr
          = plug k (branch .left c l y (plug m yr)) := by
        rw [plug_append]
        rfl
      have hrb' : (plug (m ++ ⟨.right, c, e, l⟩ :: k) (branch .left cy .nil y yr)).IsRB := by
        rw [plug_append]
        exact hrb
      refine ⟨s₂, m ++ ⟨.right, c, y, l⟩ :: k, cy, yr, ?_, hplug ▸ hs₂, hplug ▸ hlist,
        hsame₁.trans (hsame₂.mono hsub), short_relabel (short_of_isRB hrb')⟩
      have hRne : R ≠ .nil := hr
      simp only [unlink, deref_some, Option.bind_eq_bind, Option.bind_some, he, root_eq_none, hl,
        hRne, if_false, hmin, hrun₁, hrun₂, hy, RbNode.sided_color]
      rfl

/-- **`remove` takes one entity out of the tree**: the in-order sequence loses it, its links are
reset and no node outside the tree is touched. -/
theorem remove_spec {cmp : Addr → Addr → Ordering} {L : List Addr} (hs : s.Wf cmp L)
    (he : e ∈ L) :
    ∃ s', s.remove (some e) = some (s', some e) ∧ s'.Wf cmp (L.erase e)
      ∧ s'.heap e = RbNode.new ∧ ∀ a, a ∉ L → s'.heap a = s.heap a := by
  obtain ⟨⟨t, hrepr, hrb, rfl⟩, hlen, hsorted⟩ := hs
  obtain ⟨k, c, l, r, rfl⟩ := exists_plug_of_mem he
  obtain ⟨s₁, K, cy, yr, hrun₁, hs₁, hlist, hsame, hshort⟩ := unlink_spec hrepr hrb hlen
  have hT : (plug k (node c l e r)).toList
      = (k.before ++ l.toList) ++ e :: (r.toList ++ k.after) := by
    simp [toList_plug, toList]
  have hne : e ∉ (k.before ++ l.toList) ++ (r.toList ++ k.after) := by
    have h := hrepr.nodup
    rw [hT, List.nodup_middle, List.nodup_cons] at h
    exact h.1
  have herase : (plug k (node c l e r)).toList.erase e = (plug K yr).toList := by
    rw [hlist, hT, List.erase_append_right _ fun h => hne (by simp_all), List.erase_cons_head]
    simp
  have hlen₁ : s₁.len = (plug K yr).toList.length + 1 := by
    rw [hsame.len, hlen, ← herase, List.length_erase_of_mem he]
    have := List.length_pos_of_mem he
    omega
  -- the fix-up runs only when a black node is missing
  obtain ⟨s₂, t₂, hrun₂, h₂, hrb₂⟩ : ∃ s₂ t₂,
      (if cy = .black then s₁.removeFixup (s₁.len + 2) yr.root (parent K) else some s₁) = some s₂
        ∧ Holds s₁ (plug K yr).toList s₂ t₂ ∧ t₂.IsRB := by
    cases cy with
    | red => exact ⟨s₁, _, rfl, Holds.of_repr hs₁, hshort⟩
    | black =>
        obtain ⟨hr, n, hn, hk⟩ := hshort
        have hfuel := length_add_le K yr
        exact removeFixup_spec (Holds.of_repr hs₁) hn hr hk (by omega)
  have hrest : e ∉ t₂.toList := by
    rw [h₂.toList, hlist]
    simpa using hne
  have hreset : ∀ a, a ≠ e → poke s₂.heap (some e) (fun _ => RbNode.new) a = s₂.heap a :=
    fun a ha => poke_of_ne (by simpa using Ne.symm ha)
  refine ⟨{ s₂ with len := s₂.len - 1, heap := poke s₂.heap (some e) fun _ => RbNode.new }, ?_,
    ⟨⟨t₂, ⟨h₂.repr.root, h₂.repr.linked.congr fun a ha => hreset a ?_, h₂.repr.nodup⟩, hrb₂, ?_⟩,
      ?_, ?_⟩, poke_self (f := fun _ => RbNode.new), fun a ha => ?_⟩
  · have hlen₂ : s₂.len ≠ 0 := by rw [h₂.same.len, hlen₁]; omega
    cases cy with
    | red =>
        obtain rfl : s₁ = s₂ := by simpa using hrun₂
        simp [remove, hrun₁, resetLinks, hlen₂]
    | black =>
        have hfix : s₁.removeFixup (s₁.len + 2) yr.root (parent K) = some s₂ := by
          simpa using hrun₂
        simp [remove, hrun₁, hfix, resetLinks, hlen₂]
  · rintro rfl; exact hrest ha
  · rw [h₂.toList, herase]
  · show s₂.len - 1 = _
    rw [h₂.same.len, hlen₁, herase]
    omega
  · exact hsorted.sublist List.erase_sublist
  · have hae : a ≠ e := by rintro rfl; exact ha he
    have haK : a ∉ (plug K yr).toList := fun hm => ha (List.mem_of_mem_erase (herase ▸ hm))
    show poke s₂.heap (some e) (fun _ => RbNode.new) a = s.heap a
    rw [hreset a hae, h₂.same.heap a haK, hsame.heap a ha]

/-- `pop_first` removes the first element of the in-order sequence. -/
theorem popFirst_spec {cmp : Addr → Addr → Ordering} {L : List Addr} (hs : s.Wf cmp L) :
    ∃ s', s.popFirst = some (s', L.head?) ∧ s'.Wf cmp L.tail
      ∧ (∀ a ∈ L.head?, s'.heap a = RbNode.new) ∧ ∀ a, a ∉ L → s'.heap a = s.heap a := by
  have hfirst : s.first = some L.head? := hs.first
  cases L with
  | nil => exact ⟨s, by simp [popFirst, hfirst], hs, by simp, fun _ _ => rfl⟩
  | cons e L =>
      obtain ⟨s', hrun, hs', he, ho⟩ := remove_spec hs (List.mem_cons_self ..)
      rw [List.erase_cons_head] at hs'
      exact ⟨s', by simp [popFirst, hfirst, hrun], hs', by simpa using he, ho⟩

end TreeMem

end Rtsched

import Rtsched.RBTree.Navigate

/-!
`insert_fixup` and the placement part of `RBTree::insert`.

The loop of `insert_fixup` moves a red node `z` up its context; `Ctx.Bal n k` is its invariant,
`z` being allowed to hang below a red parent.  `insertFixupBody_red` is the recolouring case,
which climbs two frames, and `insertFixupBody_rotate` the two rotation cases, after which the
loop ends.  `insertFixup_spec` is the loop, `insertDescend_spec` the search for the parent.
-/

namespace Rtsched

open RedBlack RedBlack.Shape RedBlack.Ctx Ordered

namespace TreeMem

variable {s₀ s : TreeMem} {L : List Addr} {k : Ctx Addr} {d : Dir}

/-- The final rotation of `insert_fixup`: the parent becomes the root of the subtree. -/
lemma insertFixupRotate_spec {t u v : Shape Addr} {z p g : Addr}
    (h : Holds s₀ L s (plug k (branch d .black (branch d .red t p u) g v)))
    (hz : t.root = some z) :
    ∃ s', s.insertFixupRotate d (some z) = some s'
      ∧ Holds s₀ L s' (plug k (branch d .black t p (branch d .red u g v))) := by
  have hzp : (s.heap z).parent = some p :=
    Repr.parent_root (k := ⟨d, .red, p, u⟩ :: ⟨d, .black, g, v⟩ :: k) h.repr hz
  have hpg : (s.heap p).parent = some g := by
    rw [Repr.heap_branch (k := ⟨d, .black, g, v⟩ :: k) h.repr, RbNode.sided_parent]
    rfl
  obtain ⟨s₁, hrun₁, h₁⟩ := Holds.setColor (k := ⟨d, .black, g, v⟩ :: k) h .black
  obtain ⟨s₂, hrun₂, h₂⟩ := Holds.setColor (k := k) (a := g) h₁ .red
  obtain ⟨s₃, hrun₃, h₃⟩ := h₂.rotate_flip
  refine ⟨s₃, ?_, h₃⟩
  simp only [insertFixupRotate, deref_some, hzp, hpg, hrun₁, hrun₂, hrun₃,
    Option.bind_eq_bind, Option.bind_some]

/-- A red uncle: the parent and the uncle become black, the grandparent red. -/
lemma insertFixupBody_red {e e' : Dir} {t u v w : Shape Addr} {z p g q : Addr}
    (h : Holds s₀ L s (plug k (branch d .black (branch e .red t p u) g
      (branch e' .red v q w)))) :
    ∃ s', s.insertFixupBody d (some z) (some p) (some g) = some (s', some g)
      ∧ Holds s₀ L s' (plug k (branch d .red (branch e .black t p u) g
        (branch e' .black v q w))) := by
  have hg : s.heap g = RbNode.sided d k.parent (some p) (some q) .black := by
    rw [h.repr.heap_branch, root_branch, root_branch]
  have hq : s.colorOf (some q) = .red := by
    have hr := h.repr
    rw [plug_branch] at hr
    simpa using hr.colorOf_root
  obtain ⟨s₁, hrun₁, h₁⟩ := Holds.setColor (k := ⟨d, .black, g, _⟩ :: k) h .black
  rw [plug_cons, plug_branch] at h₁
  obtain ⟨s₂, hrun₂, h₂⟩ := h₁.setColor .black
  rw [plug_cons, branch_flip] at h₂
  obtain ⟨s₃, hrun₃, h₃⟩ := Holds.setColor (k := k) (a := g) h₂ .red
  refine ⟨s₃, ?_, h₃⟩
  simp only [insertFixupBody, deref_some, hg, RbNode.sided_child_flip, hq, hrun₁, hrun₂, hrun₃,
    if_true, Option.bind_eq_bind, Option.bind_some]

/-- A black uncle: one or two rotations, after which the red node hangs below a black one. -/
lemma insertFixupBody_rotate {e : Dir} {t u v : Shape Addr} {z p g : Addr} {n : ℕ}
    (h : Holds s₀ L s (plug k (branch d .black (branch e .red t p u) g v)))
    (hz : t.root = some z) (hc : t.color = .red) (ht : t.BlackHeight n) (htr : t.NoRedRed)
    (hu : u.BlackHeight n) (hur : u.NoRedRed) (huc : u.color = .black)
    (hv : v.BlackHeight n) (hvr : v.NoRedRed) (hvc : v.color = .black) (hk : Bal (n + 1) k) :
    ∃ s' z' t' b w, s.insertFixupBody d (some z) (some p) (some g) = some (s', some z')
      ∧ Holds s₀ L s' (plug (⟨d, .black, b, w⟩ :: k) t') ∧ Bal n (⟨d, .black, b, w⟩ :: k)
      ∧ t'.root = some z' ∧ t'.BlackHeight n ∧ t'.NoRedRed := by
  have hg : s.heap g = RbNode.sided d k.parent (some p) v.root .black := by
    rw [h.repr.heap_branch, root_branch]
  have hvcol : ¬ s.colorOf v.root = .red := by
    have hr := h.repr
    rw [plug_branch] at hr
    simp [hr.colorOf_root, hvc]
  have hp : s.heap p = RbNode.sided e (some g) (some z) u.root .red := by
    rw [Repr.heap_branch (k := ⟨d, .black, g, v⟩ :: k) h.repr, hz]
    rfl
  have htne : t ≠ .nil := by rintro rfl; simp at hz
  rcases Dir.eq_or_eq_flip d e with rfl | rfl
  · have hzu : ¬ some z = u.root := by
      rw [← hz]
      exact Repr.root_ne_sib (k := ⟨e, .black, g, v⟩ :: k) h.repr (Or.inl htne)
    obtain ⟨s', hrun, h'⟩ := insertFixupRotate_spec h hz
    refine ⟨s', z, t, p, branch e .red u g v, ?_, h', bal_black.mpr ⟨?_, ?_, hk⟩, hz, ht, htr⟩
    · simp only [insertFixupBody, deref_some, hg, RbNode.sided_child_flip, hvcol, hp, hzu, hrun,
        if_false, Option.bind_eq_bind, Option.bind_some]
    · simp [hu, hv]
    · simp [hur, hvr, huc, hvc]
  · -- the first rotation turns this case into the other one, with `z` and its parent exchanged
    obtain ⟨c, l, b, r, rfl⟩ := exists_branch d htne
    have hbz : b = z := by simpa using hz
    have hcr : c = .red := by simpa using hc
    subst hbz hcr
    obtain ⟨hcc, hlr, hrr⟩ := (noRedRed_branch ..).mp htr
    obtain ⟨hlc, hrc⟩ := hcc rfl
    obtain ⟨hl, hr⟩ := (blackHeight_red ..).mp ht
    rw [branch_flip] at h
    obtain ⟨s₁, hrun₁, h₁⟩ := Holds.rotate (k := ⟨d, .black, g, v⟩ :: k) h
    obtain ⟨s', hrun, h'⟩ := insertFixupRotate_spec h₁ (root_branch ..)
    refine ⟨s', p, branch d .red u p l, b, branch d .red r g v, ?_, h',
      bal_black.mpr ⟨?_, ?_, hk⟩, root_branch .., ?_, ?_⟩
    · rw [RbNode.sided_flip] at hp
      simp only [insertFixupBody, deref_some, hg, RbNode.sided_child_flip, hvcol, hp, hrun₁,
        hrun, if_true, if_false, Option.bind_eq_bind, Option.bind_some]
    · simp [hr, hv]
    · simp [hrr, hvr, hrc, hvc]
    · simp [hu, hl]
    · simp [hur, hlr, huc, hlc]

/-- The loop ends at a node that is the root or hangs below a black one. -/
lemma insertFixup_exit {t : Shape Addr} {z : Addr} {n : ℕ} (fuel : ℕ)
    (h : Holds s₀ L s (plug k t)) (hz : t.root = some z) (ht : t.BlackHeight n)
    (htr : t.NoRedRed) (hk : Bal n k) (htop : k = [] ∨ k.TopBlack) :
    ∃ s' t', s.insertFixup (fuel + 1) (some z) = some s' ∧ Holds s₀ L s' t' ∧ t'.IsRB := by
  have hpar : ¬ s.colorOf (s.heap z).parent = .red := by
    rw [h.repr.parent_root hz]
    rcases htop with rfl | htop
    · simp [colorOf]
    · cases k with
      | nil => exact absurd htop id
      | cons f k =>
          have hf := h.repr.heap_branch
          have hfc : f.color = .black := htop
          show ¬ (s.heap f.label).color = .red
          rw [hf, RbNode.sided_color, hfc]
          decide
  obtain ⟨s', hrun, h'⟩ := h.blackenRoot
  refine ⟨s', _, ?_, h', ?_⟩
  · simpa only [insertFixup, deref_some, hpar, if_false, Option.bind_eq_bind,
      Option.bind_some] using hrun
  · rcases htop with rfl | htop
    · exact isRB_blacken htr ht
    · have hrb := hk.plug ht htr (Or.inr htop)
      rwa [blacken_eq_self hrb.root_black]

/-- `insert_fixup` restores the balance laws and keeps the in-order sequence. -/
lemma insertFixup_spec {t : Shape Addr} {z : Addr} {n fuel : ℕ}
    (h : Holds s₀ L s (plug k t)) (hz : t.root = some z) (hc : t.color = .red)
    (ht : t.BlackHeight n) (htr : t.NoRedRed) (hk : Bal n k) (hfuel : k.length < fuel) :
    ∃ s' t', s.insertFixup fuel (some z) = some s' ∧ Holds s₀ L s' t' ∧ t'.IsRB := by
  -- each turn of the loop climbs two frames or is the last one
  induction fuel generalizing s k t z n with
  | zero => omega
  | succ fuel ih =>
      match k with
      | [] => exact insertFixup_exit fuel h hz ht htr hk (Or.inl rfl)
      | ⟨e, .black, p, u⟩ :: k => exact insertFixup_exit fuel h hz ht htr hk (Or.inr rfl)
      | [⟨e, .red, p, u⟩] => exact absurd (bal_red.mp hk).2.2.2.1 id
      | ⟨e, .red, p, u⟩ :: ⟨d, cg, g, v⟩ :: k =>
          obtain ⟨hu, hur, huc, hcg, hk₁⟩ := bal_red.mp hk
          have hcg' : cg = .black := hcg
          subst hcg'
          obtain ⟨hv, hvr, hk₂⟩ := bal_black.mp hk₁
          simp only [List.length_cons] at hfuel
          have hr : Repr s (plug k (branch d .black (branch e .red t p u) g v)) := h.repr
          have hzp : (s.heap z).parent = some p :=
            Repr.parent_root (k := ⟨e, .red, p, u⟩ :: ⟨d, .black, g, v⟩ :: k) hr hz
          have hp : s.heap p = RbNode.sided e (some g) t.root u.root .red :=
            Repr.heap_branch (k := ⟨d, .black, g, v⟩ :: k) hr
          have hg : s.heap g = RbNode.sided d (parent k) (some p) v.root .black := by
            rw [hr.heap_branch, root_branch]
          have hpc : s.colorOf (some p) = .red := by
            show (s.heap p).color = .red
            rw [hp, RbNode.sided_color]
          -- the arm taken is the side of the parent
          have hside : (if some p = (s.heap g).left then Dir.left else Dir.right) = d := by
            cases d with
            | left => rw [if_pos (by rw [hg]; rfl)]
            | right =>
                have hpv : ¬ some p = (s.heap g).left := by
                  rw [hg]
                  have := hr.root_ne_sib (Or.inl (by cases e <;> simp [branch]))
                  simpa [RbNode.sided] using this
                rw [if_neg hpv]
          have hstep : s.insertFixup (fuel + 1) (some z)
              = (s.insertFixupBody d (some z) (some p) (some g)).bind
                  fun x => insertFixup fuel x.1 x.2 := by
            simp only [insertFixup, deref_some, hzp, hpc, hp, RbNode.sided_parent, hside,
              if_true, Option.bind_eq_bind, Option.bind_some]
          by_cases hvc : v.color = .red
          · obtain ⟨c, l, q, r, rfl⟩ := exists_branch d
              (show v ≠ .nil by rintro rfl; simp at hvc)
            have hcr : c = .red := by simpa using hvc
            subst hcr
            obtain ⟨hcc, hlr, hrr⟩ := (noRedRed_branch ..).mp hvr
            obtain ⟨hl, hrh⟩ := (blackHeight_red ..).mp hv
            obtain ⟨s₁, hrun₁, h₁⟩ := insertFixupBody_red (z := z) h
            obtain ⟨s', t', hrun, h', hrb⟩ := ih (n := n + 1) h₁ (root_branch ..)
              (color_branch ..) (by simp [ht, hu, hl, hrh]) (by simp [htr, hur, hlr, hrr]) hk₂
              (by omega)
            exact ⟨s', t', by rw [hstep, hrun₁]; exact hrun, h', hrb⟩
          · have hvb : v.color = .black := by cases hv' : v.color <;> simp_all
            obtain ⟨s₁, z', t₁, b, w, hrun₁, h₁, hkb, hz₁, ht₁, htr₁⟩ :=
              insertFixupBody_rotate h hz hc ht htr hu hur huc hv hvr hvb hk₂
            obtain ⟨fuel, rfl⟩ : ∃ m, fuel = m + 1 := ⟨fuel - 1, by omega⟩
            obtain ⟨s', t', hrun, h', hrb⟩ :=
              insertFixup_exit fuel h₁ hz₁ ht₁ htr₁ hkb (Or.inr rfl)
            exact ⟨s', t', by rw [hstep, hrun₁]; exact hrun, h', hrb⟩

/-! ### The placement of the new node -/

/-- The descent ends at the empty place whose left neighbours are below `e` and whose right
neighbours are above it. -/
lemma insertDescend_spec {cmp : Addr → Addr → Ordering} [Std.TransCmp cmp]
    [Std.LawfulEqCmp cmp] {t : Shape Addr} {e : Addr} {fuel : ℕ} (hs : Linked s.heap k.parent t)
    (ho : t.toList.Pairwise fun x y => cmp x y = .lt) (he : e ∉ t.toList)
    (hb : ∀ x ∈ k.before, cmp e x = .gt) (ha : ∀ x ∈ k.after, cmp e x = .lt)
    (hfuel : t.toList.length ≤ fuel) :
    ∃ k', s.insertDescend cmp e fuel k.parent t.root = some k'.parent
      ∧ plug k' .nil = plug k t ∧ (∀ x ∈ k'.before, cmp e x = .gt)
      ∧ ∀ x ∈ k'.after, cmp e x = .lt := by
  induction t generalizing k fuel with
  | nil => exact ⟨k, by cases fuel <;> rfl, rfl, hb, ha⟩
  | node c l a r ihl ihr =>
      have hlen : (node c l a r).toList.length = l.toList.length + (r.toList.length + 1) := by
        simp [toList]
      obtain ⟨fuel, rfl⟩ : ∃ m, fuel = m + 1 := ⟨fuel - 1, by omega⟩
      obtain ⟨hheap, hll, hlr⟩ := hs
      simp only [toList, List.pairwise_append, List.pairwise_cons, List.mem_cons] at ho
      obtain ⟨hol, ⟨har, hor⟩, hlar⟩ := ho
      simp only [toList, List.mem_append, List.mem_cons, not_or] at he
      obtain ⟨hel, hea, her⟩ := he
      cases hcmp : cmp e a with
      | eq => exact absurd (Std.LawfulEqCmp.eq_of_compare hcmp) hea
      | lt =>
          obtain ⟨k', hrun, hplug, hb', ha'⟩ := ihl (k := ⟨.left, c, a, r⟩ :: k)
            hll hol hel hb (fun x hx => by
              simp only [after, List.mem_cons, List.mem_append] at hx
              rcases hx with rfl | hx | hx
              · exact hcmp
              · exact Std.TransCmp.lt_trans hcmp (har x hx)
              · exact ha x hx) (by omega : l.toList.length ≤ fuel)
          refine ⟨k', ?_, hplug, hb', ha'⟩
          simpa [insertDescend, hcmp, hheap] using hrun
      | gt =>
          obtain ⟨k', hrun, hplug, hb', ha'⟩ := ihr (k := ⟨.right, c, a, l⟩ :: k)
            hlr hor her (fun x hx => by
              simp only [before, List.mem_append, List.mem_singleton] at hx
              rcases hx with hx | hx | rfl
              · exact hb x hx
              · exact Std.TransCmp.gt_trans hcmp
                  (Std.OrientedCmp.gt_of_lt (hlar x hx a (Or.inl rfl)))
              · exact hcmp) ha (by omega : r.toList.length ≤ fuel)
          refine ⟨k', ?_, hplug, hb', ha'⟩
          simpa [insertDescend, hcmp, hheap] using hrun

/-- The new node hangs red and childless at its place. -/
lemma place_spec {cmp : Addr → Addr → Ordering} {e : Addr} (hs : Repr s (plug k .nil))
    (he : e ∉ ctxLabels k) (hnew : s.heap e = RbNode.new)
    (hb : ∀ x ∈ k.before, cmp e x = .gt) (ha : ∀ x ∈ k.after, cmp e x = .lt) :
    ∃ s', place cmp s e k.parent = some s' ∧ Repr s' (plug k (node .red .nil e .nil))
      ∧ s'.len = s.len ∧ ∀ a, a ≠ e → a ∉ ctxLabels k → s'.heap a = s.heap a := by
  obtain ⟨hroot, hlink, hnd⟩ := hs
  obtain ⟨hck, -⟩ := linked_plug.mp hlink
  obtain ⟨-, -, hkn⟩ := nodup_plug hnd
  have hpe : k.parent ≠ some e := fun h => he (parent_mem h)
  set h₁ := poke s.heap (some e) (RbNode.setParent k.parent) with hh₁
  have h₁e : h₁ e = ⟨k.parent, none, none, .red⟩ := by rw [hh₁, poke_self, hnew]; rfl
  have h₁o : ∀ a, a ≠ e → h₁ a = s.heap a := fun a hae =>
    poke_of_ne (by simpa using Ne.symm hae)
  -- the child slot written is the one the hole hangs on
  have hrun : place cmp s e k.parent
      = some (({ s with heap := h₁ } : TreeMem).hang k (some e)) := by
    match k with
    | [] => simp [place, setParent, hang, poke, hh₁]
    | ⟨.left, c, p, u⟩ :: k =>
        have hlt : cmp e p = .lt := ha p (by simp [after])
        simp [place, setParent, setChild, hlt, hang, ctxDir, hh₁]
    | ⟨.right, c, p, u⟩ :: k =>
        have hgt : cmp e p = .gt := hb p (by simp [before])
        simp [place, setParent, setChild, hgt, hang, ctxDir, hh₁]
  refine ⟨_, hrun, ⟨?_, linked_plug.mpr ⟨?_, ?_, trivial, trivial⟩, ?_⟩, rfl, ?_⟩
  · rw [root_plug] at hroot ⊢
    cases k with
    | nil => rfl
    | cons f k => exact hroot
  · refine hck.rehang hkn (fun a hpa => ?_) fun a hak hpa => ?_
    · have hae : a ≠ e := by rintro rfl; exact hpe hpa
      show poke h₁ k.parent _ a = _
      rw [poke_of_eq hpa, h₁o a hae]
      rfl
    · have hae : a ≠ e := by rintro rfl; exact he hak
      show poke h₁ k.parent _ a = _
      rw [poke_of_ne hpa, h₁o a hae]
  · show poke h₁ k.parent _ e = _
    rw [poke_of_ne hpe, h₁e]
    rfl
  · rw [toList_plug] at hnd ⊢
    simp only [toList, List.nil_append, ctxLabels, List.mem_append, not_or] at hnd he ⊢
    rw [List.nodup_append] at hnd ⊢
    refine ⟨hnd.1, List.nodup_cons.mpr ⟨he.2, hnd.2.1⟩, fun a hab b hb' => ?_⟩
    rcases List.mem_cons.mp hb' with rfl | hb'
    · rintro rfl; exact he.1 hab
    · exact hnd.2.2 a hab b hb'
  · intro a hae hak
    show poke h₁ k.parent _ a = _
    rw [poke_of_ne (fun h => hak (parent_mem h)), h₁o a hae]

/-- **`RBTree::insert`** on a well-formed tree and a detached entity: it terminates, the tree is
well formed again with the entity at its place in the order, and the links of all other nodes
outside the tree are unchanged. -/
theorem insert_spec {cmp : Addr → Addr → Ordering} [Std.TransCmp cmp] [Std.LawfulEqCmp cmp]
    {l : List Addr} {e : Addr} (hs : s.Wf cmp l) (he : e ∉ l) :
    ∃ s', s.insert cmp e = some s' ∧ s'.Wf cmp (ordInsert cmp e l)
      ∧ ∀ a, a ≠ e → a ∉ l → s'.heap a = s.heap a := by
  obtain ⟨⟨t, hrepr, hrb, rfl⟩, hlen, hsorted⟩ := hs
  have hcont : s.contains e = some false := by
    rw [contains_spec hrepr hlen, decide_eq_false he]
  -- `reset_links` does not touch the tree
  set s₁ : TreeMem := { s with heap := poke s.heap (some e) fun _ => RbNode.new } with hs₁
  have hs₁o : ∀ a, a ≠ e → s₁.heap a = s.heap a := fun a hae =>
    poke_of_ne (h := s.heap) (p := some e) (f := fun _ => RbNode.new)
      (by simpa using Ne.symm hae)
  have hrepr₁ : Repr s₁ t := ⟨hrepr.root, hrepr.linked.congr fun a ha =>
    hs₁o a (by rintro rfl; exact he ha), hrepr.nodup⟩
  obtain ⟨k, hdesc, hplug, hb, ha⟩ := insertDescend_spec (k := [])
    hrepr₁.linked hsorted he (by simp [before]) (by simp [after])
    (by omega : t.toList.length ≤ s.len + 1)
  rw [plug_nil] at hplug
  have hlist : t.toList = k.before ++ k.after := by rw [← hplug, toList_plug]; simp [toList]
  have hek : e ∉ ctxLabels k := by rw [ctxLabels, ← hlist]; exact he
  obtain ⟨s₂, hplace, hrepr₂, hlen₂, hs₂o⟩ := place_spec (s := s₁) (hplug ▸ hrepr₁) hek
    (by simp [hs₁]) hb ha
  -- the balance laws before the fix-up
  obtain ⟨n, hbal, hnil, -, -⟩ := bal_of_plug (k := k) (t := .nil) (hplug ▸ hrb)
  have hn : n = 0 := blackHeight_nil.mp hnil
  subst hn
  have hklen := length_add_le k .nil
  rw [hplug, ← hlen] at hklen
  have hfuel : k.length < s₂.len + 2 := by
    have : s₂.len = s.len := hlen₂
    simp only [toList, List.length_nil] at hklen
    omega
  obtain ⟨s₃, t', hfix, hholds, hrb'⟩ := insertFixup_spec (Holds.of_repr hrepr₂)
    (root_node ..) rfl ((blackHeight_red .left .nil .nil e 0).mpr (by simp))
    ((noRedRed_branch .left .red .nil .nil e).mpr (by simp)) hbal hfuel
  have hins : ordInsert cmp e t.toList = k.before ++ e :: k.after := by
    rw [hlist]
    exact ordInsert_append (fun x hx => by rw [hb x hx]; decide) ha
  have hL : (plug k (node .red .nil e .nil)).toList = k.before ++ e :: k.after := by
    rw [toList_plug]; simp [toList]
  have hs₃len : s₃.len = s.len := by rw [hholds.same.len, hlen₂]
  refine ⟨{ s₃ with len := s₃.len + 1 }, ?_, ⟨⟨t', ?_, hrb', ?_⟩, ?_, ?_⟩, ?_⟩
  · have hdesc' : s₁.insertDescend cmp e (s₁.len + 1) none s₁.root = some k.parent := by
      rw [hrepr₁.root]
      exact hdesc
    simp only [insert, hcont, resetLinks, modify_some, Option.bind_eq_bind, Option.bind_some,
      Bool.false_eq_true, if_false]
    rw [← hs₁, hdesc', Option.bind_some, hplace, Option.bind_some, hfix, Option.bind_some]
  · exact ⟨hholds.repr.root, hholds.repr.linked, hholds.repr.nodup⟩
  · rw [hholds.toList, hL, hins]
  · show s₃.len + 1 = (ordInsert cmp e t.toList).length
    rw [ordInsert, List.orderedInsert_length, hs₃len, hlen]
  · exact hsorted.ordInsert he
  · intro a hae hal
    have hak : a ∉ ctxLabels k := by rw [ctxLabels, ← hlist]; exact hal
    have haL : a ∉ (plug k (node .red .nil e .nil)).toList := by
      rw [hL]
      simp only [List.mem_append, List.mem_cons, not_or]
      simp only [ctxLabels, List.mem_append, not_or] at hak
      exact ⟨hak.1, hae, hak.2⟩
    show s₃.heap a = s.heap a
    rw [hholds.same.heap a haL, hs₂o a hae hak, hs₁o a hae]

end TreeMem

end Rtsched

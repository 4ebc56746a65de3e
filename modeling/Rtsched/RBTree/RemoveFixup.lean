import Rtsched.RBTree.Repr

/-!
`remove_fixup`: a subtree that is one black node short is moved up its context.

The invariant is `Ctx.Bal (n + 1) k` for a subtree of black height `n`.  The four cases of the
source follow one another: `removeFixupRed_spec` makes the sibling black, then either both
children of the sibling are black and the missing node is passed on to the parent, or
`removeFixupNear_spec` makes the far child red and `removeFixupRotate_spec` ends the loop.
-/

namespace Rtsched

open RedBlack RedBlack.Shape RedBlack.Ctx

namespace TreeMem

variable {s₀ s : TreeMem} {L : List Addr} {k : Ctx Addr} {d : Dir} {n : ℕ} {t : Shape Addr}

/-- `whenSome` on a pointer that is not null. -/
lemma whenSome_some (s : TreeMem) (a : Addr) (f : TreeMem → Option TreeMem) :
    s.whenSome (some a) f = f s := by simp [whenSome]

lemma ne_nil_of_color_red {t : Shape Addr} (h : t.color = .red) : t ≠ .nil := by
  rintro rfl
  simp at h

lemma color_black_of_not_red {t : Shape Addr} (h : ¬ t.color = .red) : t.color = .black := by
  cases hc : t.color with
  | red => exact absurd hc h
  | black => rfl

/-- The first case: afterwards the sibling is black. -/
lemma removeFixupRed_spec {c : Color} {t u : Shape Addr} {a : Addr}
    (h : Holds s₀ L s (plug (⟨d, c, a, u⟩ :: k) t)) (hk : Bal (n + 1) (⟨d, c, a, u⟩ :: k)) :
    ∃ s' c' u' k', s.removeFixupRed d (some a) u.root = some (s', u'.root)
      ∧ Holds s₀ L s' (plug (⟨d, c', a, u'⟩ :: k') t) ∧ Bal (n + 1) (⟨d, c', a, u'⟩ :: k')
      ∧ u'.color = .black ∧ (c' = .black → k' = k) := by
  have huc : s.colorOf u.root = u.color := by
    have hr := h.repr
    rw [plug_cons, plug_branch] at hr
    exact hr.colorOf_root
  by_cases hred : u.color = .red
  · -- a red sibling has a black parent and black children
    have hcb : c = .black := by
      cases c with
      | red => rw [(bal_red.mp hk).2.2.1] at hred; exact absurd hred (by decide)
      | black => rfl
    subst hcb
    obtain ⟨cw, v, w, r, rfl⟩ := exists_branch d (ne_nil_of_color_red hred)
    have hcw : cw = .red := by simpa using hred
    subst hcw
    obtain ⟨hu, hur, hk'⟩ := bal_black.mp hk
    obtain ⟨hv, hr⟩ := (blackHeight_red ..).mp hu
    obtain ⟨hcc, hvr, hrr⟩ := (noRedRed_branch ..).mp hur
    obtain ⟨hvc, hrc⟩ := hcc rfl
    rw [plug_cons, plug_branch] at h
    obtain ⟨s₁, hrun₁, h₁⟩ := h.setColor .black
    rw [plug_cons, branch_flip] at h₁
    obtain ⟨s₂, hrun₂, h₂⟩ := h₁.setColor .red
    obtain ⟨s₃, hrun₃, h₃⟩ := h₂.rotate
    refine ⟨s₃, .red, v, ⟨d, .black, w, r⟩ :: k, ?_, h₃, ?_, hvc, by simp⟩
    · have hv' : s₃.childOf d.flip (some a) = v.root :=
        (Repr.childOf_root (k := ⟨d, .black, w, r⟩ :: k) h₃.repr).2
      have huc' : s.colorOf (some w) = .red := by simpa using huc
      simp only [removeFixupRed, root_branch, huc', hrun₁, hrun₂, hrun₃, hv', if_true,
        Option.bind_eq_bind, Option.bind_some]
    · exact bal_red.mpr ⟨hv, hvr, hvc, rfl, bal_black.mpr ⟨hr, hrr, hk'⟩⟩
  · refine ⟨s, c, u, k, ?_, h, hk, color_black_of_not_red hred, fun _ => rfl⟩
    simp only [removeFixupRed, huc, hred, if_false]

/-- The colours read at the children of the sibling. -/
lemma colorOf_sib {c cw : Color} {t v r : Shape Addr} {a w : Addr}
    (h : Repr s (plug (⟨d, c, a, branch d cw v w r⟩ :: k) t)) :
    s.childOf d (some w) = v.root ∧ s.childOf d.flip (some w) = r.root
      ∧ s.colorOf v.root = v.color ∧ s.colorOf r.root = r.color := by
  rw [plug_cons, plug_branch] at h
  have hv := Repr.colorOf_root (k := ⟨d, cw, w, r⟩ :: ⟨d.flip, c, a, t⟩ :: k) (t := v) h
  refine ⟨h.childOf_root.1, h.childOf_root.2, hv, ?_⟩
  rw [plug_branch] at h
  exact h.colorOf_root

/-- The third case: afterwards the far child of the sibling is red. -/
lemma removeFixupNear_spec {c : Color} {t v r : Shape Addr} {a w : Addr}
    (h : Holds s₀ L s (plug (⟨d, c, a, branch d .black v w r⟩ :: k) t))
    (hv : v.BlackHeight n) (hvr : v.NoRedRed) (hr : r.BlackHeight n) (hrr : r.NoRedRed)
    (hred : ¬ (v.color = .black ∧ r.color = .black)) :
    ∃ s' v' w' r', s.removeFixupNear d (some a) (some w) = some (s', some w')
      ∧ Holds s₀ L s' (plug (⟨d, c, a, branch d .black v' w' r'⟩ :: k) t)
      ∧ v'.BlackHeight n ∧ v'.NoRedRed ∧ r'.BlackHeight n ∧ r'.NoRedRed ∧ r'.color = .red := by
  obtain ⟨hcv, hcr, hcolv, hcolr⟩ := colorOf_sib h.repr
  by_cases hrc : r.color = .black
  · have hvc : v.color = .red := by
      by_contra hne
      exact hred ⟨color_black_of_not_red hne, hrc⟩
    obtain ⟨cq, p, q, u, rfl⟩ := exists_branch d (ne_nil_of_color_red hvc)
    have hcq : cq = .red := by simpa using hvc
    subst hcq
    obtain ⟨hp, hu⟩ := (blackHeight_red ..).mp hv
    obtain ⟨hcc, hpr, hur⟩ := (noRedRed_branch ..).mp hvr
    obtain ⟨-, huc⟩ := hcc rfl
    rw [plug_cons, plug_branch] at h
    obtain ⟨s₁, hrun₁, h₁⟩ := Holds.setColor (d := d) (c := .red) (l := p) (a := q) (r := u)
      (k := ⟨d, .black, w, r⟩ :: ⟨d.flip, c, a, t⟩ :: k) h .black
    obtain ⟨s₂, hrun₂, h₂⟩ := Holds.setColor (k := ⟨d.flip, c, a, t⟩ :: k) h₁ .red
    obtain ⟨s₃, hrun₃, h₃⟩ := h₂.rotate_flip
    have hw : s₃.childOf d.flip (some a) = some q := by
      have := (Repr.childOf_root (k := k) (d := d.flip) h₃.repr).1
      simpa using this
    rw [plug_cons, branch_flip] at h₃
    refine ⟨s₃, p, q, branch d .red u w r, ?_, h₃, hp, hpr, by simp [hu, hr],
      by simp [hur, hrr, huc, hrc], color_branch ..⟩
    simp only [removeFixupNear, hcr, hcolr, hrc, hcv, root_branch, whenSome_some, hrun₁, hrun₂,
      hrun₃, hw, if_true, Option.bind_eq_bind, Option.bind_some]
  · refine ⟨s, v, w, r, ?_, h, hv, hvr, hr, hrr, ?_⟩
    · simp only [removeFixupNear, hcr, hcolr, hrc, if_false]
    · by_contra hne
      exact hrc (color_black_of_not_red hne)

/-- The last case: the subtree below the parent is complete again, under its old colour. -/
lemma removeFixupRotate_spec {c : Color} {t v r : Shape Addr} {a w : Addr}
    (h : Holds s₀ L s (plug (⟨d, c, a, branch d .black v w r⟩ :: k) t))
    (ht : t.BlackHeight n) (htr : t.NoRedRed) (hv : v.BlackHeight n) (hvr : v.NoRedRed)
    (hr : r.BlackHeight n) (hrr : r.NoRedRed) (hrc : r.color = .red)
    (hk : Bal (n + 1) (⟨d, c, a, branch d .black v w r⟩ :: k)) :
    ∃ s' t', s.removeFixupRotate d (some a) (some w) = some s' ∧ Holds s₀ L s' t' ∧ t'.IsRB := by
  obtain ⟨cf, p, q, u, rfl⟩ := exists_branch d (ne_nil_of_color_red hrc)
  have hcf : cf = .red := by simpa using hrc
  subst hcf
  obtain ⟨hp, hu⟩ := (blackHeight_red ..).mp hr
  obtain ⟨hcc, hpr, hur⟩ := (noRedRed_branch ..).mp hrr
  have hac : (s.heap a).color = c := by
    rw [Repr.heap_branch (k := k) h.repr, RbNode.sided_color]
  rw [plug_cons, plug_branch] at h
  obtain ⟨s₁, hrun₁, h₁⟩ := h.setColor c
  rw [plug_cons, branch_flip] at h₁
  obtain ⟨s₂, hrun₂, h₂⟩ := h₁.setColor .black
  rw [plug_branch] at h₂
  have hfar : s₂.childOf d.flip (some w) = some q := by
    have := h₂.repr.childOf_root.2
    simpa using this
  rw [plug_branch] at h₂
  obtain ⟨s₃, hrun₃, h₃⟩ := h₂.setColor .black
  rw [plug_cons, branch_flip, plug_cons, branch_flip] at h₃
  obtain ⟨s₄, hrun₄, h₄⟩ := h₃.rotate
  refine ⟨s₄, _, ?_, h₄, ?_⟩
  · simp only [removeFixupRotate, whenSome_some, deref_some, hac, hrun₁, hrun₂, hfar, hrun₃,
      hrun₄, Option.bind_eq_bind, Option.bind_some]
  · cases c with
    | red =>
        obtain ⟨-, -, -, htop, hk'⟩ := bal_red.mp hk
        exact hk'.plug (by simp [ht, hv, hp, hu]) (by simp [htr, hvr, hpr, hur]) (Or.inr htop)
    | black =>
        obtain ⟨-, -, hk'⟩ := bal_black.mp hk
        exact hk'.plug (by simp [ht, hv, hp, hu]) (by simp [htr, hvr, hpr, hur])
          (Or.inl (by simp))

/-- The loop ends with `x` as the root or red: `x` is coloured black. -/
lemma removeFixup_exit {t : Shape Addr} {parent : Ptr} (fuel : ℕ) (h : Holds s₀ L s (plug k t))
    (ht : t.blacken.BlackHeight n) (htr : t.blacken.NoRedRed) (hk : Bal n k)
    (hx : ¬ (t.root ≠ s.root ∧ t.color = .black)) :
    ∃ s' t', s.removeFixup (fuel + 1) t.root parent = some s' ∧ Holds s₀ L s' t'
      ∧ t'.IsRB := by
  have hcol := h.repr.colorOf_root
  have hstep : s.removeFixup (fuel + 1) t.root parent
      = s.whenSome t.root fun s => s.setColor t.root .black := by
    rw [removeFixup, hcol, if_neg hx]
  have hrb : (plug k t.blacken).IsRB := hk.plug ht htr (Or.inl (by cases t <;> rfl))
  cases t with
  | nil => exact ⟨s, _, by rw [hstep]; rfl, h, hrb⟩
  | node c l a r =>
      obtain ⟨s', hrun, h'⟩ := Holds.setColor (d := .left) h .black
      exact ⟨s', _, by rw [hstep, root_node, whenSome_some]; exact hrun, h', hrb⟩

/-- What one turn of the loop leaves behind, for the next `x` and `parent`: a red-black tree and
its root, or the parent as the next subtree, complete once it is black, or one black node short
again with a shorter context. -/
inductive FixupTurn (s₀ : TreeMem) (L : List Addr) (n : ℕ) (k : Ctx Addr) (s : TreeMem) :
    Ptr → Ptr → Prop
  | done {t : Shape Addr} (h : Holds s₀ L s t) (hrb : t.IsRB) : FixupTurn s₀ L n k s s.root none
  | red {k' : Ctx Addr} {t : Shape Addr} (h : Holds s₀ L s (plug k' t)) (hc : t.color = .red)
      (ht : t.blacken.BlackHeight (n + 1)) (htr : t.blacken.NoRedRed) (hk : Bal (n + 1) k') :
      FixupTurn s₀ L n k s t.root k'.parent
  | up {t : Shape Addr} (h : Holds s₀ L s (plug k t)) (ht : t.BlackHeight (n + 1))
      (htr : t.NoRedRed) (hk : Bal (n + 2) k) : FixupTurn s₀ L n k s t.root k.parent

/-- One turn of the loop, on the side of `x`. -/
lemma removeFixupBody_spec {c : Color} {t u : Shape Addr} {a : Addr}
    (h : Holds s₀ L s (plug (⟨d, c, a, u⟩ :: k) t)) (ht : t.BlackHeight n) (htr : t.NoRedRed)
    (hk : Bal (n + 1) (⟨d, c, a, u⟩ :: k)) :
    ∃ s' x p, s.removeFixupBody d (some a) = some (s', x, p) ∧ FixupTurn s₀ L n k s' x p := by
  have hu : s.childOf d.flip (some a) = u.root := (Repr.childOf_root (k := k) h.repr).2
  obtain ⟨s₁, c', u', k', hrun₁, h₁, hk₁, huc, hkk⟩ := removeFixupRed_spec h hk
  have hu'n : u'.BlackHeight (n + 1) ∧ u'.NoRedRed := by
    cases c' with
    | red => exact ⟨(bal_red.mp hk₁).1, (bal_red.mp hk₁).2.1⟩
    | black => exact ⟨(bal_black.mp hk₁).1, (bal_black.mp hk₁).2.1⟩
  obtain ⟨cw, v, w, r, rfl⟩ := exists_branch d (ne_nil_of_blackHeight_succ hu'n.1)
  have hcw : cw = .black := by simpa using huc
  subst hcw
  obtain ⟨hv, hr⟩ := (blackHeight_black_succ ..).mp hu'n.1
  obtain ⟨-, hvr, hrr⟩ := (noRedRed_branch ..).mp hu'n.2
  obtain ⟨hcv, hcr, hcolv, hcolr⟩ := colorOf_sib h₁.repr
  by_cases hboth : v.color = .black ∧ r.color = .black
  · -- the second case: the sibling turns red and the parent is looked at next
    have h₂ := h₁
    rw [plug_cons, plug_branch] at h₂
    obtain ⟨s₂, hrun₂, h₂⟩ := Holds.setColor (d := d) h₂ .red
    rw [plug_cons, branch_flip] at h₂
    have hpar : s₂.parentOf (some a) = parent k' := h₂.repr.parent_root (root_branch ..)
    refine ⟨s₂, some a, parent k', ?_, ?_⟩
    · simp only [removeFixupBody, hu, hrun₁, root_branch, hcv, hcr, hcolv, hcolr, hboth, and_self,
        whenSome_some, hrun₂, hpar, if_true, Option.bind_eq_bind, Option.bind_some]
    · cases c' with
      | red =>
          obtain ⟨-, -, -, -, hk'⟩ := bal_red.mp hk₁
          rw [← root_branch d .red t (branch d .red v w r) a]
          exact .red h₂ (color_branch ..) (by simp [ht, hv, hr])
            (by simp [htr, hvr, hrr, hboth.1, hboth.2]) hk'
      | black =>
          obtain ⟨-, -, hk'⟩ := bal_black.mp hk₁
          obtain rfl := hkk rfl
          rw [← root_branch d .black t (branch d .red v w r) a]
          exact .up h₂ (by simp [ht, hv, hr]) (by simp [htr, hvr, hrr, hboth.1, hboth.2]) hk'
  · obtain ⟨s₂, v', w', r', hrun₂, h₂, hv', hvr', hr', hrr', hrc'⟩ :=
      removeFixupNear_spec h₁ hv hvr hr hrr hboth
    have hk₂ : Bal (n + 1) (⟨d, c', a, branch d .black v' w' r'⟩ :: k') := by
      have hsib : (branch d .black v' w' r').BlackHeight (n + 1) := by simp [hv', hr']
      have hsibr : (branch d .black v' w' r').NoRedRed := by simp [hvr', hrr']
      cases c' with
      | red =>
          obtain ⟨-, -, -, htop, hk'⟩ := bal_red.mp hk₁
          exact bal_red.mpr ⟨hsib, hsibr, color_branch .., htop, hk'⟩
      | black => exact bal_black.mpr ⟨hsib, hsibr, (bal_black.mp hk₁).2.2⟩
    obtain ⟨s₃, t₃, hrun₃, h₃, hrb⟩ :=
      removeFixupRotate_spec h₂ ht htr hv' hvr' hr' hrr' hrc' hk₂
    refine ⟨s₃, s₃.root, none, ?_, .done h₃ hrb⟩
    simp only [removeFixupBody, hu, hrun₁, root_branch, hcv, hcr, hcolv, hcolr, hboth,
      hrun₂, hrun₃, if_false, Option.bind_eq_bind, Option.bind_some]

/-- `remove_fixup` recognises the side of `x`: the sibling is not empty, so the two children of
the parent differ. -/
lemma removeFixup_side {c : Color} {t u : Shape Addr} {a : Addr}
    (h : Repr s (plug (⟨d, c, a, u⟩ :: k) t)) (hu : u ≠ .nil) :
    (if t.root = s.leftOf (some a) then Dir.left else Dir.right) = d := by
  have hne : t.root ≠ u.root := Repr.root_ne_sib (k := k) h (Or.inr hu)
  have hch : s.childOf d (some a) = t.root ∧ s.childOf d.flip (some a) = u.root :=
    Repr.childOf_root (k := k) h
  cases d with
  | left => exact if_pos hch.1.symm
  | right => exact if_neg fun he => hne (he.trans hch.2)

/-- The root of a whole tree lies in the context, unless that is empty. -/
lemma root_ne_of_ctx (h : Repr s (plug k t)) (hk : k ≠ []) : t.root ≠ s.root := by
  obtain ⟨-, hdisj, -⟩ := nodup_plug h.nodup
  obtain ⟨a, ha, hroot⟩ := ctxRoot_mem hk t.root
  rw [h.root, root_plug, hroot]
  exact fun he => hdisj a ha (root_mem he)

/-- `remove_fixup` restores the balance laws and keeps the in-order sequence. -/
lemma removeFixup_spec {t : Shape Addr} {fuel : ℕ} (h : Holds s₀ L s (plug k t))
    (ht : t.BlackHeight n) (htr : t.NoRedRed) (hk : Bal (n + 1) k)
    (hfuel : k.length + 1 < fuel) :
    ∃ s' t', s.removeFixup fuel t.root k.parent = some s' ∧ Holds s₀ L s' t' ∧ t'.IsRB := by
  induction fuel generalizing s t k n with
  | zero => omega
  | succ fuel ih =>
      have hroot : s.root = ctxRoot k t.root := by rw [h.repr.root, root_plug]
      by_cases hc : t.root ≠ s.root ∧ t.color = .black
      · obtain ⟨fr, k, rfl⟩ : ∃ fr k', k = fr :: k' := by
          cases k with
          | nil => exact absurd hroot.symm hc.1
          | cons fr k => exact ⟨fr, k, rfl⟩
        obtain ⟨d, c, a, u⟩ := fr
        have hun : u ≠ .nil := by
          cases c with
          | red => exact ne_nil_of_blackHeight_succ (bal_red.mp hk).1
          | black => exact ne_nil_of_blackHeight_succ (bal_black.mp hk).1
        obtain ⟨s', x, p, hrun, hturn⟩ := removeFixupBody_spec h ht htr hk
        have hstep : s.removeFixup (fuel + 1) t.root (some a) = s'.removeFixup fuel x p := by
          simp only [removeFixup, h.repr.colorOf_root, if_pos hc, removeFixup_side h.repr hun, hrun,
            Option.bind_eq_bind, Option.bind_some]
        rw [parent_cons, hstep]
        simp only [List.length_cons] at hfuel
        obtain ⟨fuel, rfl⟩ : ∃ m, fuel = m + 1 := ⟨fuel - 1, by omega⟩
        cases hturn with
        | @done t' h' hrb =>
            obtain ⟨m, hm⟩ := hrb.blackHeight
            rw [h'.repr.root]
            have hb := blacken_eq_self hrb.root_black
            exact removeFixup_exit (k := []) fuel h' (by rwa [hb]) (by rw [hb]; exact hrb.noRedRed)
              (bal_nil m) (by simp [h'.repr.root])
        | red h' hcr ht' htr' hk' =>
            exact removeFixup_exit fuel h' ht' htr' hk' (by simp [hcr])
        | up h' ht' htr' hk' => exact ih h' ht' htr' hk' (by omega)
      · by_cases hcol : t.color = .red
        · obtain ⟨c, l, a, r, rfl⟩ := exists_branch .left (ne_nil_of_color_red hcol)
          have hcc : c = .red := by simpa using hcol
          subst hcc
          obtain ⟨hl, hr⟩ := (blackHeight_red ..).mp ht
          obtain ⟨-, hlr, hrr⟩ := (noRedRed_branch ..).mp htr
          exact removeFixup_exit fuel h (by simp [hl, hr]) (by simp [hlr, hrr]) hk hc
        · -- `x` is the root
          have hblack := color_black_of_not_red hcol
          have hk0 : k = [] := by
            by_contra hne
            exact hc ⟨root_ne_of_ctx h.repr hne, hblack⟩
          subst hk0
          have hb := blacken_eq_self hblack
          exact removeFixup_exit fuel h (by rwa [hb]) (by rwa [hb]) (bal_nil n) hc

end TreeMem

end Rtsched

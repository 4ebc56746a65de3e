import Mathlib.Data.List.Nodup
import Mathlib.Tactic

/-!
Red-black shapes and their contexts, independently of any representation in memory.

* `Shape` is a binary tree with a colour and a label at every node; `Shape.toList` is its
  in-order sequence, `Shape.NoRedRed` and `Shape.BlackHeight` are the two balance laws.
* `Shape.branch d` builds a node from the child on side `d` and the child on the other side, so
  that a rotation and its mirror image are one statement.
* A `Frame` is one step of the path from a subtree up to the root; a `Ctx` is such a path,
  innermost frame first, and `Ctx.plug` puts a subtree back into it.
* `Ctx.Bal n k`: a subtree of black height `n` may be put in the hole of `k`.  Both fix-up loops
  of a red-black tree move a subtree up its context under this invariant; `Ctx.Bal.plug` is what
  they conclude.
-/

namespace RedBlack

/-- The colour of a node. -/
inductive Color where
  | red
  | black
  deriving DecidableEq, Repr

/-- The side of a child. -/
inductive Dir where
  | left
  | right
  deriving DecidableEq, Repr

/-- The other side. -/
def Dir.flip : Dir → Dir
  | .left => .right
  | .right => .left

@[simp] lemma Dir.flip_flip (d : Dir) : d.flip.flip = d := by cases d <;> rfl

@[simp] lemma Dir.flip_ne (d : Dir) : d.flip ≠ d := by cases d <;> decide

@[simp] lemma Dir.ne_flip (d : Dir) : d ≠ d.flip := by cases d <;> decide

lemma Dir.eq_or_eq_flip (d e : Dir) : e = d ∨ e = d.flip := by cases d <;> cases e <;> decide

/-- Binary trees with a colour and a label at every node. -/
inductive Shape (α : Type*) where
  | nil : Shape α
  | node (c : Color) (l : Shape α) (a : α) (r : Shape α) : Shape α

namespace Shape

variable {α : Type*}

/-- The label at the root. -/
def root : Shape α → Option α
  | nil => none
  | node _ _ a _ => some a

/-- The colour of the root; the empty tree counts as black. -/
def color : Shape α → Color
  | nil => .black
  | node c _ _ _ => c

/-- The in-order sequence of labels. -/
def toList : Shape α → List α
  | nil => []
  | node _ l a r => l.toList ++ a :: r.toList

/-- No red node has a red child. -/
def NoRedRed : Shape α → Prop
  | nil => True
  | node c l _ r =>
      (c = .red → l.color = .black ∧ r.color = .black) ∧ l.NoRedRed ∧ r.NoRedRed

/-- Every path from the root to an empty tree has `n` black nodes. -/
def BlackHeight : ℕ → Shape α → Prop
  | n, nil => n = 0
  | n, node .red l _ r => l.BlackHeight n ∧ r.BlackHeight n
  | 0, node .black _ _ _ => False
  | n + 1, node .black l _ r => l.BlackHeight n ∧ r.BlackHeight n

/-- The node with subtree `t` on side `d` and `s` on the other side. -/
def branch (d : Dir) (c : Color) (t : Shape α) (a : α) (s : Shape α) : Shape α :=
  match d with
  | .left => node c t a s
  | .right => node c s a t

@[simp] lemma root_nil : (nil : Shape α).root = none := rfl

@[simp] lemma root_node (c : Color) (l r : Shape α) (a : α) : (node c l a r).root = some a := rfl

@[simp] lemma root_branch (d : Dir) (c : Color) (t s : Shape α) (a : α) :
    (branch d c t a s).root = some a := by cases d <;> rfl

@[simp] lemma color_branch (d : Dir) (c : Color) (t s : Shape α) (a : α) :
    (branch d c t a s).color = c := by cases d <;> rfl

@[simp] lemma color_nil : (nil : Shape α).color = .black := rfl

@[simp] lemma root_eq_none {t : Shape α} : t.root = none ↔ t = nil := by
  cases t <;> simp [root]

/-- A node seen from its other side. -/
lemma branch_flip (d : Dir) (c : Color) (t s : Shape α) (a : α) :
    branch d.flip c t a s = branch d c s a t := by cases d <;> rfl

/-- Every nonempty tree is a branch on either side. -/
lemma exists_branch (d : Dir) {t : Shape α} (h : t ≠ nil) :
    ∃ c u a v, t = branch d c u a v := by
  cases t with
  | nil => exact absurd rfl h
  | node c l a r =>
      cases d with
      | left => exact ⟨c, l, a, r, rfl⟩
      | right => exact ⟨c, r, a, l, rfl⟩

@[simp] lemma noRedRed_branch (d : Dir) (c : Color) (t s : Shape α) (a : α) :
    (branch d c t a s).NoRedRed ↔
      (c = .red → t.color = .black ∧ s.color = .black) ∧ t.NoRedRed ∧ s.NoRedRed := by
  cases d with
  | left => rfl
  | right =>
      simp only [branch, NoRedRed]
      tauto

@[simp] lemma noRedRed_nil : (nil : Shape α).NoRedRed := trivial

@[simp] lemma blackHeight_nil {n : ℕ} : (nil : Shape α).BlackHeight n ↔ n = 0 := by
  cases n <;> simp [BlackHeight]

@[simp] lemma blackHeight_red (d : Dir) (t s : Shape α) (a : α) (n : ℕ) :
    (branch d .red t a s).BlackHeight n ↔ t.BlackHeight n ∧ s.BlackHeight n := by
  cases d with
  | left => cases n <;> rfl
  | right => cases n <;> exact and_comm

@[simp] lemma blackHeight_black_succ (d : Dir) (t s : Shape α) (a : α) (n : ℕ) :
    (branch d .black t a s).BlackHeight (n + 1) ↔ t.BlackHeight n ∧ s.BlackHeight n := by
  cases d with
  | left => rfl
  | right => exact and_comm

@[simp] lemma not_blackHeight_black_zero (d : Dir) (t s : Shape α) (a : α) :
    ¬ (branch d .black t a s).BlackHeight 0 := by cases d <;> exact id

/-- A tree of positive black height is not empty. -/
lemma ne_nil_of_blackHeight_succ {t : Shape α} {n : ℕ} (h : t.BlackHeight (n + 1)) :
    t ≠ nil := by
  rintro rfl
  simp at h

/-- Membership in the in-order sequence of a branch does not depend on the side. -/
lemma mem_toList_branch (d : Dir) (c : Color) (t s : Shape α) (a x : α) :
    x ∈ (branch d c t a s).toList ↔ x = a ∨ x ∈ t.toList ∨ x ∈ s.toList := by
  cases d <;> simp only [branch, toList, List.mem_append, List.mem_cons] <;> tauto

lemma nodup_branch (d : Dir) (c : Color) (t s : Shape α) (a : α) :
    (branch d c t a s).toList.Nodup ↔
      a ∉ t.toList ∧ a ∉ s.toList ∧ t.toList.Nodup ∧ s.toList.Nodup
        ∧ ∀ x ∈ t.toList, x ∉ s.toList := by
  cases d <;>
    simp only [branch, toList, List.nodup_append, List.nodup_cons, List.mem_cons] <;> grind

lemma root_mem {t : Shape α} {a : α} (h : t.root = some a) : a ∈ t.toList := by
  cases t with
  | nil => simp [root] at h
  | node c l b r =>
      simp only [root, Option.some.injEq] at h
      simp [toList, h]

/-- A rotation keeps the in-order sequence. -/
lemma toList_rotate (d : Dir) (c c' e e' : Color) (l m r : Shape α) (x y : α) :
    (branch d e (branch d e' l x m) y r).toList
      = (branch d c l x (branch d c' m y r)).toList := by
  cases d <;> simp [branch, toList]

/-- A recolouring keeps the in-order sequence. -/
lemma toList_recolor (d : Dir) (c c' : Color) (l r : Shape α) (x : α) :
    (branch d c l x r).toList = (branch d c' l x r).toList := by
  cases d <;> rfl

/-- A red-black shape: black root, no red node with a red child, and the same number of black
nodes on all paths from the root to an empty tree. -/
structure IsRB (t : Shape α) : Prop where
  root_black : t.color = .black
  noRedRed : t.NoRedRed
  blackHeight : ∃ n, t.BlackHeight n

/-- Recolouring the root black. -/
def blacken : Shape α → Shape α
  | nil => nil
  | node _ l a r => node .black l a r

@[simp] lemma blacken_branch (d : Dir) (c : Color) (t s : Shape α) (a : α) :
    (branch d c t a s).blacken = branch d .black t a s := by cases d <;> rfl

@[simp] lemma blacken_nil : (nil : Shape α).blacken = nil := rfl

@[simp] lemma toList_blacken (t : Shape α) : t.blacken.toList = t.toList := by
  cases t <;> rfl

lemma blacken_eq_self {t : Shape α} (h : t.color = .black) : t.blacken = t := by
  cases t with
  | nil => rfl
  | node c l a r =>
      simp only [color] at h
      rw [h, blacken]

/-- Blackening the root of a tree whose only flaw may be a red root. -/
lemma isRB_blacken {t : Shape α} {n : ℕ} (hr : t.NoRedRed) (hn : t.BlackHeight n) :
    t.blacken.IsRB := by
  cases t with
  | nil => exact ⟨rfl, trivial, n, hn⟩
  | node c l a r =>
      refine ⟨rfl, ⟨by simp, hr.2⟩, ?_⟩
      cases c with
      | red => exact ⟨n + 1, (blackHeight_black_succ .left l r a n).mpr
          ((blackHeight_red .left l r a n).mp hn)⟩
      | black => exact ⟨n, hn⟩

end Shape

/-! ### Contexts -/

/-- One step up from a subtree: the side it hangs on, the colour and label of its parent, and
its sibling. -/
structure Frame (α : Type*) where
  dir : Dir
  color : Color
  label : α
  sib : Shape α

/-- A path from a subtree up to the root, innermost frame first. -/
abbrev Ctx (α : Type*) := List (Frame α)

namespace Ctx

variable {α : Type*}

open Shape

/-- Put a subtree into the hole of a context. -/
def plug : Ctx α → Shape α → Shape α
  | [], t => t
  | f :: k, t => plug k (branch f.dir f.color t f.label f.sib)

@[simp] lemma plug_nil (t : Shape α) : plug [] t = t := rfl

@[simp] lemma plug_cons (f : Frame α) (k : Ctx α) (t : Shape α) :
    plug (f :: k) t = plug k (branch f.dir f.color t f.label f.sib) := rfl

lemma plug_append (k k' : Ctx α) (t : Shape α) : plug (k ++ k') t = plug k' (plug k t) := by
  induction k generalizing t with
  | nil => rfl
  | cons f k ih => simp [ih]

/-- The label of the parent of the hole. -/
def parent : Ctx α → Option α
  | [] => none
  | f :: _ => some f.label

@[simp] lemma parent_nil : parent ([] : Ctx α) = none := rfl

@[simp] lemma parent_cons (f : Frame α) (k : Ctx α) : parent (f :: k) = some f.label := rfl

/-- The labels before the hole. -/
def before : Ctx α → List α
  | [] => []
  | f :: k => match f.dir with
    | .left => before k
    | .right => before k ++ (f.sib.toList ++ [f.label])

/-- The labels after the hole. -/
def after : Ctx α → List α
  | [] => []
  | f :: k => match f.dir with
    | .left => f.label :: (f.sib.toList ++ after k)
    | .right => after k

lemma toList_plug (k : Ctx α) (t : Shape α) :
    (plug k t).toList = k.before ++ (t.toList ++ k.after) := by
  induction k generalizing t with
  | nil => simp [before, after]
  | cons f k ih =>
      rw [plug_cons, ih]
      cases hf : f.dir <;> simp [before, after, branch, toList, hf]

/-- A node seen from the sibling of the hole. -/
lemma plug_branch (k : Ctx α) (d : Dir) (c : Color) (t s : Shape α) (a : α) :
    plug k (branch d c t a s) = plug (⟨d.flip, c, a, t⟩ :: k) s := by
  rw [plug_cons, branch_flip]

/-- Two subtrees with the same in-order sequence may be exchanged. -/
lemma toList_plug_congr (k : Ctx α) {t t' : Shape α} (h : t.toList = t'.toList) :
    (plug k t).toList = (plug k t').toList := by
  rw [toList_plug, toList_plug, h]

/-- The hole hangs below a black node. -/
def TopBlack : Ctx α → Prop
  | [] => False
  | f :: _ => f.color = .black

/-- A subtree of black height `n` may be put in the hole: every sibling on the path has the
black height its place asks for, and a red node of the path has a black sibling and a black
parent, so that the root is black. -/
def Bal : ℕ → Ctx α → Prop
  | _, [] => True
  | n, f :: k =>
      f.sib.BlackHeight n ∧ f.sib.NoRedRed ∧
        match f.color with
        | .red => f.sib.color = .black ∧ TopBlack k ∧ Bal n k
        | .black => Bal (n + 1) k

@[simp] lemma bal_nil (n : ℕ) : Bal n ([] : Ctx α) := trivial

lemma bal_red {n : ℕ} {d : Dir} {a : α} {s : Shape α} {k : Ctx α} :
    Bal n (⟨d, .red, a, s⟩ :: k) ↔
      s.BlackHeight n ∧ s.NoRedRed ∧ s.color = .black ∧ k.TopBlack ∧ Bal n k := Iff.rfl

lemma bal_black {n : ℕ} {d : Dir} {a : α} {s : Shape α} {k : Ctx α} :
    Bal n (⟨d, .black, a, s⟩ :: k) ↔ s.BlackHeight n ∧ s.NoRedRed ∧ Bal (n + 1) k := Iff.rfl

/-- The balance laws of the whole tree, from those of a context and of the subtree in it. -/
lemma Bal.plug {k : Ctx α} {t : Shape α} {n : ℕ} (hk : Bal n k) (ht : t.BlackHeight n)
    (hr : t.NoRedRed) (hc : t.color = .black ∨ k.TopBlack) : (plug k t).IsRB := by
  induction k generalizing t n with
  | nil => exact ⟨hc.resolve_right id, hr, n, ht⟩
  | cons f k ih =>
      obtain ⟨d, c, a, s⟩ := f
      cases c with
      | red =>
          obtain ⟨hs, hsr, hsc, htop, hk⟩ := bal_red.mp hk
          have htc : t.color = .black := hc.resolve_right (by simp [TopBlack])
          exact ih hk (by simp [ht, hs]) (by simp [hr, hsr, htc, hsc]) (Or.inr htop)
      | black =>
          obtain ⟨hs, hsr, hk⟩ := bal_black.mp hk
          exact ih hk (by simp [ht, hs]) (by simp [hr, hsr]) (Or.inl (by simp))

/-- The balance laws of a context and of its subtree, from those of the whole tree. -/
lemma bal_of_plug {k : Ctx α} {t : Shape α} (h : (plug k t).IsRB) :
    ∃ n, Bal n k ∧ t.BlackHeight n ∧ t.NoRedRed ∧ (t.color = .black ∨ k.TopBlack) := by
  induction k generalizing t with
  | nil =>
      obtain ⟨m, hm⟩ := h.blackHeight
      exact ⟨m, trivial, hm, h.noRedRed, Or.inl h.root_black⟩
  | cons f k ih =>
      obtain ⟨d, c, a, s⟩ := f
      obtain ⟨n, hk, hn, hnr, htop⟩ := ih h
      simp only [color_branch, noRedRed_branch] at hn hnr htop
      cases c with
      | red =>
          obtain ⟨h1, h2⟩ := (blackHeight_red ..).mp hn
          obtain ⟨h3, h4⟩ := hnr.1 rfl
          exact ⟨n, bal_red.mpr ⟨h2, hnr.2.2, h4, htop.resolve_left (by simp), hk⟩, h1,
            hnr.2.1, Or.inl h3⟩
      | black =>
          cases n with
          | zero => exact absurd hn (by simp)
          | succ n =>
              obtain ⟨h1, h2⟩ := (blackHeight_black_succ ..).mp hn
              exact ⟨n, bal_black.mpr ⟨h2, hnr.2.2, hk⟩, h1, hnr.2.1, Or.inr rfl⟩

/-- Labels do not matter for the balance of a context. -/
lemma bal_relabel {n : ℕ} {d : Dir} {c : Color} {a b : α} {s : Shape α} (m k : Ctx α) :
    Bal n (m ++ ⟨d, c, a, s⟩ :: k) ↔ Bal n (m ++ ⟨d, c, b, s⟩ :: k) := by
  induction m generalizing n with
  | nil => cases c <;> rfl
  | cons f m ih =>
      have htop : TopBlack (m ++ ⟨d, c, a, s⟩ :: k) ↔ TopBlack (m ++ ⟨d, c, b, s⟩ :: k) := by
        cases m <;> rfl
      cases hf : f.color <;> simp only [List.cons_append, Bal, hf, htop, ih]

lemma topBlack_relabel {d : Dir} {c : Color} {a b : α} {s : Shape α} (m k : Ctx α) :
    TopBlack (m ++ ⟨d, c, a, s⟩ :: k) ↔ TopBlack (m ++ ⟨d, c, b, s⟩ :: k) := by
  cases m <;> rfl

/-- A context that hangs on one side only has nothing before, or nothing after, its hole. -/
lemma before_of_left {k : Ctx α} (h : ∀ f ∈ k, f.dir = .left) : k.before = [] := by
  induction k with
  | nil => rfl
  | cons f k ih =>
      have hf := h f (by simp)
      simp only [before, hf]
      exact ih fun g hg => h g (by simp [hg])

/-- Every label of a tree is the root of a subtree in some context. -/
lemma exists_plug_of_mem {t : Shape α} {a : α} (h : a ∈ t.toList) :
    ∃ (k : Ctx α) (c : Color) (l r : Shape α), t = plug k (node c l a r) := by
  induction t with
  | nil => simp [toList] at h
  | node c l b r ihl ihr =>
      simp only [toList, List.mem_append, List.mem_cons] at h
      rcases h with h | rfl | h
      · obtain ⟨k, c', l', r', rfl⟩ := ihl h
        exact ⟨k ++ [⟨.left, c, b, r⟩], c', l', r', by simp [plug_append, branch]⟩
      · exact ⟨[], c, l, r, rfl⟩
      · obtain ⟨k, c', l', r', rfl⟩ := ihr h
        exact ⟨k ++ [⟨.right, c, b, l⟩], c', l', r', by simp [plug_append, branch]⟩

/-- The context of the outermost node of a tree on side `d`: only frames on side `d`. -/
lemma exists_spine (d : Dir) {t : Shape α} (h : t ≠ nil) :
    ∃ (k : Ctx α) (c : Color) (a : α) (s : Shape α),
      t = plug k (branch d c nil a s) ∧ ∀ f ∈ k, f.dir = d := by
  -- one more frame on side `d` around the spine of the child on that side
  have key : ∀ (c : Color) (u : Shape α) (a : α) (v : Shape α),
      (u ≠ nil → ∃ (k : Ctx α) (c : Color) (a : α) (s : Shape α),
        u = plug k (branch d c nil a s) ∧ ∀ f ∈ k, f.dir = d) →
      ∃ (k : Ctx α) (c' : Color) (a' : α) (s : Shape α),
        branch d c u a v = plug k (branch d c' nil a' s) ∧ ∀ f ∈ k, f.dir = d := by
    intro c u a v ih
    by_cases hu : u = nil
    · exact ⟨[], c, a, v, by rw [hu]; rfl, by simp⟩
    · obtain ⟨k, c', a', s, hk, hd⟩ := ih hu
      refine ⟨k ++ [⟨d, c, a, v⟩], c', a', s, by rw [plug_append, ← hk]; rfl, ?_⟩
      intro f hf
      rcases List.mem_append.mp hf with hf | hf
      · exact hd f hf
      · rw [List.mem_singleton.mp hf]
  induction t with
  | nil => exact absurd rfl h
  | node c l a r ihl ihr =>
      cases d with
      | left => exact key c l a r ihl
      | right => exact key c r a l ihr

/-- A context has fewer frames than the whole tree has labels. -/
lemma length_add_le (k : Ctx α) (t : Shape α) :
    k.length + t.toList.length ≤ (plug k t).toList.length := by
  induction k generalizing t with
  | nil => simp
  | cons f k ih =>
      have h := ih (branch f.dir f.color t f.label f.sib)
      have hb : t.toList.length + 1 ≤ (branch f.dir f.color t f.label f.sib).toList.length := by
        cases f.dir <;> simp [branch, toList]
      rw [plug_cons, List.length_cons]
      omega

end Ctx

end RedBlack

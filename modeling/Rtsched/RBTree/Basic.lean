import Rtsched.Lib.RedBlack

/-!
The intrusive red-black tree of `src/rbtree.rs`.

An entity is identified with the `RbNode` embedded in it, so `T::node` and `T::entity_of` are
the identity on addresses; a pointer is an optional address, `none` being null.  The nodes live
in a heap, and a `TreeMem` is that heap together with one `RBTree` value.  A function returns
`none` when the source dereferences a null pointer, fails an assertion or keeps looping: every
loop carries a fuel argument, and the callers start it from the number of linked nodes.

`leftRotate` and `rightRotate` are the two instances of `rotate`, and the two arms of each
fix-up loop are the two instances of one body, the source having written both out.
-/

namespace Rtsched

open RedBlack

/-- A machine address. -/
abbrev Addr := ℕ

/-- A raw pointer, `none` being null. -/
abbrev Ptr := Option Addr

/-- Intrusive links embedded inside an owning entity. -/
structure RbNode where
  parent : Ptr
  left : Ptr
  right : Ptr
  color : Color
  deriving DecidableEq, Repr

namespace RbNode

/-- `RbNode::new`, also the value `reset_links` writes. -/
def new : RbNode := ⟨none, none, none, .red⟩

/-- The child on side `d`. -/
def child (d : Dir) (n : RbNode) : Ptr :=
  match d with
  | .left => n.left
  | .right => n.right

/-- Assign the child on side `d`. -/
def setChild (d : Dir) (p : Ptr) (n : RbNode) : RbNode :=
  match d with
  | .left => { n with left := p }
  | .right => { n with right := p }

/-- Assign the parent. -/
def setParent (p : Ptr) (n : RbNode) : RbNode := { n with parent := p }

/-- Assign the colour. -/
def setColor (c : Color) (n : RbNode) : RbNode := { n with color := c }

end RbNode

/-- The tree value itself: the root and the number of linked nodes. -/
structure RBTree where
  root : Ptr
  len : ℕ
  deriving DecidableEq, Repr

/-- `RBTree::new`. -/
def RBTree.new : RBTree := ⟨none, 0⟩

/-- One tree together with the memory its nodes live in. -/
structure TreeMem extends RBTree where
  heap : Addr → RbNode

namespace TreeMem

/-- Read through a pointer; null has no node. -/
def deref (s : TreeMem) : Ptr → Option RbNode
  | none => none
  | some a => some (s.heap a)

/-- Write through a pointer. -/
def modify (s : TreeMem) (p : Ptr) (f : RbNode → RbNode) : Option TreeMem :=
  match p with
  | none => none
  | some a => some { s with heap := Function.update s.heap a (f (s.heap a)) }

def setParent (s : TreeMem) (p v : Ptr) : Option TreeMem :=
  s.modify p (RbNode.setParent v)

def setChild (d : Dir) (s : TreeMem) (p v : Ptr) : Option TreeMem :=
  s.modify p (RbNode.setChild d v)

def setColor (s : TreeMem) (p : Ptr) (c : Color) : Option TreeMem :=
  s.modify p (RbNode.setColor c)

def resetLinks (s : TreeMem) (p : Ptr) : Option TreeMem :=
  s.modify p fun _ => RbNode.new

/-- Run a step on a non-null pointer only (`if !p.is_null() { .. }`). -/
def whenSome (s : TreeMem) (p : Ptr) (f : TreeMem → Option TreeMem) : Option TreeMem :=
  if p = none then some s else f s

/-- `color_of`: null counts as black. -/
def colorOf (s : TreeMem) : Ptr → Color
  | none => .black
  | some a => (s.heap a).color

/-- `parent_of`, null-safe. -/
def parentOf (s : TreeMem) : Ptr → Ptr
  | none => none
  | some a => (s.heap a).parent

/-- `left_of` and `right_of`, null-safe. -/
def childOf (d : Dir) (s : TreeMem) : Ptr → Ptr
  | none => none
  | some a => (s.heap a).child d

def leftOf := childOf .left

/-! ### Navigation -/

/-- The walk of `minimum` and `maximum`: follow the children on side `d` to the last. -/
def outermost (d : Dir) (s : TreeMem) : ℕ → Ptr → Option Ptr
  | _, none => some none
  | 0, some _ => none
  | fuel + 1, some a =>
      if (s.heap a).child d = none then some (some a)
      else outermost d s fuel ((s.heap a).child d)

def minimum := outermost .left
def maximum := outermost .right

def first (s : TreeMem) : Option Ptr := s.minimum (s.len + 1) s.root

def last (s : TreeMem) : Option Ptr := s.maximum (s.len + 1) s.root

/-- The second loop of `next`: climb while the node is a right child. -/
def climb (s : TreeMem) : ℕ → Addr → Ptr → Option Ptr
  | _, _, none => some none
  | 0, _, some _ => none
  | fuel + 1, node, some p =>
      if some node = (s.heap p).right then climb s fuel p (s.heap p).parent
      else some (some p)

def next (s : TreeMem) : Ptr → Option Ptr
  | none => some none
  | some a =>
      if (s.heap a).right ≠ none then s.minimum (s.len + 1) (s.heap a).right
      else s.climb (s.len + 1) a (s.heap a).parent

/-- The loop of `upper_bound` with its candidate. -/
def upperBoundLoop (cmp : Addr → Addr → Ordering) (s : TreeMem) (e : Addr) :
    ℕ → Ptr → Ptr → Option Ptr
  | _, none, candidate => some candidate
  | 0, some _, _ => none
  | fuel + 1, some c, candidate =>
      if cmp e c = .lt then upperBoundLoop cmp s e fuel (s.heap c).left (some c)
      else upperBoundLoop cmp s e fuel (s.heap c).right candidate

def upperBound (cmp : Addr → Addr → Ordering) (s : TreeMem) (e : Addr) : Option Ptr :=
  upperBoundLoop cmp s e (s.len + 1) s.root none

/-- The loop of `contains`. -/
def containsLoop (s : TreeMem) (e : Addr) : ℕ → Ptr → Option Bool
  | _, none => some false
  | 0, some _ => none
  | fuel + 1, some c =>
      if c = e then some true
      else do
        let current ← s.next (some c)
        containsLoop s e fuel current

def contains (s : TreeMem) (e : Addr) : Option Bool := do
  let current ← s.first
  s.containsLoop e (s.len + 1) current

/-! ### Rotations -/

/-- Point the link that leads to `x` at `y`: the root when `x` has no parent, else the child of
the parent on side `d` if that is `x`, else the child on the other side. -/
def relink (d : Dir) (s : TreeMem) (x y : Ptr) : Option TreeMem := do
  let p := (← s.deref x).parent
  if p = none then
    some { s with root := y }
  else if x = (← s.deref p).child d then
    s.setChild d p y
  else
    s.setChild d.flip p y

/-- The rotation at `x` towards side `d`. -/
def rotate (d : Dir) (s : TreeMem) (x : Ptr) : Option TreeMem := do
  let y := (← s.deref x).child d.flip
  let m := (← s.deref y).child d
  let s ← s.setChild d.flip x m
  let s ← s.whenSome m fun s => s.setParent m x
  let s ← s.setParent y (← s.deref x).parent
  let s ← s.relink d x y
  let s ← s.setChild d y x
  s.setParent x y

def leftRotate := rotate .left
def rightRotate := rotate .right

/-! ### Insertion -/

/-- The last case of an arm of `insert_fixup`: recolour the parent and the grandparent of `z`
and rotate at the grandparent. -/
def insertFixupRotate (d : Dir) (s : TreeMem) (z : Ptr) : Option TreeMem := do
  let parent := (← s.deref z).parent
  let grandparent := (← s.deref parent).parent
  let s ← s.setColor parent .black
  let s ← s.setColor grandparent .red
  s.rotate d.flip grandparent

/-- One arm of the loop of `insert_fixup`, for a parent that is the child on side `d` of the
grandparent; returns the next `z`. -/
def insertFixupBody (d : Dir) (s : TreeMem) (z parent grandparent : Ptr) :
    Option (TreeMem × Ptr) := do
  let uncle := (← s.deref grandparent).child d.flip
  if s.colorOf uncle = .red then
    let s ← s.setColor parent .black
    let s ← s.setColor uncle .black
    let s ← s.setColor grandparent .red
    some (s, grandparent)
  else if z = (← s.deref parent).child d.flip then
    let s ← s.rotate d parent
    let s ← s.insertFixupRotate d parent
    some (s, parent)
  else
    let s ← s.insertFixupRotate d z
    some (s, z)

/-- `insert_fixup`, with its final colouring of the root. -/
def insertFixup : ℕ → TreeMem → Ptr → Option TreeMem
  | 0, _, _ => none
  | fuel + 1, s, z => do
      let parent := (← s.deref z).parent
      if s.colorOf parent = .red then
        let grandparent := (← s.deref parent).parent
        let d := if parent = (← s.deref grandparent).left then Dir.left else Dir.right
        let (s, z) ← s.insertFixupBody d z parent grandparent
        insertFixup fuel s z
      else
        s.whenSome s.root fun s => s.setColor s.root .black

/-- The descent of `insert`: the parent the new node goes below.  Equal keys are unreachable in
the source. -/
def insertDescend (cmp : Addr → Addr → Ordering) (s : TreeMem) (node : Addr) :
    ℕ → Ptr → Ptr → Option Ptr
  | _, parent, none => some parent
  | 0, _, some _ => none
  | fuel + 1, _, some c =>
      match cmp node c with
      | .lt => insertDescend cmp s node fuel (some c) (s.heap c).left
      | .gt => insertDescend cmp s node fuel (some c) (s.heap c).right
      | .eq => none

/-- The part of `insert` between the descent and the fix-up: link the node below its parent. -/
def place (cmp : Addr → Addr → Ordering) (s : TreeMem) (node : Addr) (parent : Ptr) :
    Option TreeMem := do
  let s ← s.setParent (some node) parent
  match parent with
  | none => some { s with root := some node }
  | some p =>
      if cmp node p = .lt then s.setChild .left (some p) (some node)
      else s.setChild .right (some p) (some node)

/-- `RBTree::insert`. -/
def insert (cmp : Addr → Addr → Ordering) (s : TreeMem) (entity : Addr) : Option TreeMem := do
  if (← s.contains entity) then none
  else
    let s ← s.resetLinks (some entity)
    let parent ← s.insertDescend cmp entity (s.len + 1) none s.root
    let s ← s.place cmp entity parent
    let s ← s.insertFixup (s.len + 2) (some entity)
    some { s with len := s.len + 1 }

/-! ### Removal -/

/-- `transplant`: replace the subtree at `u` by the one at `v`. -/
def transplant (s : TreeMem) (u v : Ptr) : Option TreeMem := do
  let s ← s.relink .left u v
  s.whenSome v fun s => do s.setParent v (← s.deref u).parent

/-- The first case of an arm of `remove_fixup`: a red sibling `w` is rotated away; returns the
sibling to go on with. -/
def removeFixupRed (d : Dir) (s : TreeMem) (parent w : Ptr) : Option (TreeMem × Ptr) :=
  if s.colorOf w = .red then do
    let s ← s.setColor w .black
    let s ← s.setColor parent .red
    let s ← s.rotate d parent
    some (s, s.childOf d.flip parent)
  else some (s, w)

/-- The third case: a black child of `w` on the far side is replaced by the red near one. -/
def removeFixupNear (d : Dir) (s : TreeMem) (parent w : Ptr) : Option (TreeMem × Ptr) :=
  if s.colorOf (s.childOf d.flip w) = .black then do
    let near := s.childOf d w
    let s ← s.whenSome near fun s => s.setColor near .black
    let s ← s.whenSome w fun s => do
      let s ← s.setColor w .red
      s.rotate d.flip w
    some (s, s.childOf d.flip parent)
  else some (s, w)

/-- The last case: recolour and rotate at the parent. -/
def removeFixupRotate (d : Dir) (s : TreeMem) (parent w : Ptr) : Option TreeMem := do
  let s ← s.whenSome w fun s => do s.setColor w (← s.deref parent).color
  let s ← s.setColor parent .black
  let far := s.childOf d.flip w
  let s ← s.whenSome far fun s => s.setColor far .black
  s.rotate d parent

/-- One arm of the loop of `remove_fixup`, for `x` on side `d` of `parent`; returns the next `x`
and `parent`. -/
def removeFixupBody (d : Dir) (s : TreeMem) (parent : Ptr) : Option (TreeMem × Ptr × Ptr) := do
  let (s, w) ← s.removeFixupRed d parent (s.childOf d.flip parent)
  if s.colorOf (s.childOf d w) = .black ∧ s.colorOf (s.childOf d.flip w) = .black then
    let s ← s.whenSome w fun s => s.setColor w .red
    some (s, parent, s.parentOf parent)
  else
    let (s, w) ← s.removeFixupNear d parent w
    let s ← s.removeFixupRotate d parent w
    some (s, s.root, none)

/-- `remove_fixup`, with its final colouring of `x`. -/
def removeFixup : ℕ → TreeMem → Ptr → Ptr → Option TreeMem
  | 0, _, _, _ => none
  | fuel + 1, s, x, parent =>
      if x ≠ s.root ∧ s.colorOf x = .black then do
        let d := if x = s.leftOf parent then Dir.left else Dir.right
        let (s, x, parent) ← s.removeFixupBody d parent
        removeFixup fuel s x parent
      else
        s.whenSome x fun s => s.setColor x .black

/-- Take the successor `y` of `node` out of the right subtree; returns `x_parent`. -/
def detachSuccessor (s : TreeMem) (node y : Ptr) : Option (TreeMem × Ptr) := do
  let yn ← s.deref y
  if yn.parent = node then
    let s ← s.whenSome yn.right fun s => s.setParent yn.right y
    some (s, y)
  else
    let s ← s.transplant y yn.right
    let s ← s.setChild .right y (← s.deref node).right
    let s ← s.setParent (← s.deref y).right y
    some (s, yn.parent)

/-- Put the successor `y` in the place of `node`, with its left subtree and its colour. -/
def replaceBy (s : TreeMem) (node y : Ptr) : Option TreeMem := do
  let s ← s.transplant node y
  let s ← s.setChild .left y (← s.deref node).left
  let s ← s.setParent (← s.deref y).left y
  s.setColor y (← s.deref node).color

/-- The unlinking part of `remove`: the new memory, the colour that left the tree, and the
position `(x, x_parent)` where it is missing. -/
def unlink (s : TreeMem) (node : Ptr) : Option (TreeMem × Color × Ptr × Ptr) := do
  let n ← s.deref node
  if n.left = none then
    let s ← s.transplant node n.right
    some (s, n.color, n.right, n.parent)
  else if n.right = none then
    let s ← s.transplant node n.left
    some (s, n.color, n.left, n.parent)
  else
    let y ← s.minimum (s.len + 1) n.right
    let yn ← s.deref y
    let (s, xParent) ← s.detachSuccessor node y
    let s ← s.replaceBy node y
    some (s, yn.color, yn.right, xParent)

/-- `RBTree::remove`, returning the entity it was given. -/
def remove (s : TreeMem) (entity : Ptr) : Option (TreeMem × Ptr) :=
  match entity with
  | none => some (s, none)
  | some e => do
      let (s, color, x, xParent) ← s.unlink (some e)
      let s ← if color = .black then s.removeFixup (s.len + 2) x xParent else some s
      let s ← s.resetLinks (some e)
      if s.len = 0 then none
      else some ({ s with len := s.len - 1 }, some e)

/-- `RBTree::pop_first`. -/
def popFirst (s : TreeMem) : Option (TreeMem × Ptr) := do
  let first ← s.first
  if first = none then some (s, none)
  else s.remove first

end TreeMem

end Rtsched

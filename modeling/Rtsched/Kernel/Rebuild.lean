import Rtsched.Kernel.RunqSpec
import Rtsched.RBTree.Insert
import Rtsched.RBTree.Remove

/-!
`enqueue_runq_from_waitq` of `src/runq.rs` at the level of pointers: the nodes of the run queue are
popped one by one and linked into a local tree, which then replaces the run queue.  Both trees live
in the same memory.

An entity stands for the CFS thread it is embedded in.  Products of `u64` values follow the build
profile: a debug build panics when they overflow, a release build wraps.

* `recount`: the entities after the loop, or the error that stops it.
* `RunqMem.drain_spec`: the loop ends with all the nodes in the local tree and recounted entities.
* `RunqMem.enqueueRunqFromWaitq_spec`: what the function does to a well-formed run queue.
* `RunqMem.enqueueRunqFromWaitq_refines`: on sequences it is `RunQueue.enqueueFromWaitq`.
-/

namespace Rtsched

open RedBlack Ordered Outcome

/-! ### Arithmetic -/

/-- The build profiles. -/
inductive Profile
  | debug
  | release
  deriving DecidableEq

/-- A product of two `u64` values. -/
def Profile.mul (p : Profile) (a b : ℕ) : Except Fault ℕ :=
  match p with
  | debug => if u64Max < a * b then .error .arithmetic else .ok (a * b)
  | release => .ok (a * b % (u64Max + 1))

/-- `cfs_sched_ticks_from_vruntime` in a build of the profile `p`; only a debug build has the
assertion. -/
def Profile.schedTicks (p : Profile) (vruntime priority prioritySum : ℕ) : Except Fault ℕ :=
  if p = .debug ∧ priority = 0 then .error .arithmetic
  else if prioritySum = 0 then .ok 0
  else do
    let product ← p.mul vruntime prioritySum
    if priority = 0 then .error .arithmetic else .ok (product / priority)

/-- The product of the tick count of an entity fits in `u64`. -/
def SchedEntity.Fits (e : SchedEntity) (prioritySum : ℕ) : Prop :=
  e.vruntime * prioritySum ≤ u64Max

instance (e : SchedEntity) (prioritySum : ℕ) : Decidable (e.Fits prioritySum) :=
  inferInstanceAs (Decidable (_ ≤ _))

/-- The fields are in the ranges of their types, and the priority is not zero. -/
structure SchedEntity.Valid (e : SchedEntity) : Prop where
  schedTickCnt : e.schedTickCnt ≤ u64Max
  vruntime : e.vruntime ≤ u64Max
  priority : e.priority ≤ u32Max
  priority_pos : 0 < e.priority

section Ticks

variable {p : Profile} {vruntime priority prioritySum ticks : ℕ}

/-- The debug build is what `cfsSchedTicksFromVruntime` describes. -/
lemma schedTicks_debug : Profile.debug.schedTicks vruntime priority prioritySum =
    cfsSchedTicksFromVruntime vruntime priority prioritySum := by
  unfold Profile.schedTicks cfsSchedTicksFromVruntime Profile.mul
  by_cases hprio : priority = 0
  · simp [hprio]
  · by_cases hsum : prioritySum = 0
    · simp [hprio, hsum]
    · by_cases hfit : u64Max < vruntime * prioritySum
      · simp [hprio, hsum, hfit]
      · simp [hprio, hsum, hfit]

/-- A product that fits is computed in every build. -/
lemma schedTicks_of_fits (hprio : 0 < priority) (hfit : vruntime * prioritySum ≤ u64Max) :
    p.schedTicks vruntime priority prioritySum = .ok (vruntime * prioritySum / priority) := by
  have hne : priority ≠ 0 := by omega
  by_cases hsum : prioritySum = 0
  · simp [Profile.schedTicks, hne, hsum]
  · cases p with
    | debug =>
        have hlt : ¬ u64Max < vruntime * prioritySum := by omega
        simp [Profile.schedTicks, Profile.mul, hne, hsum, hlt]
    | release =>
        have hmod : vruntime * prioritySum % (u64Max + 1) = vruntime * prioritySum :=
          Nat.mod_eq_of_lt (by omega)
        simp [Profile.schedTicks, Profile.mul, hne, hsum, hmod]

/-- A debug build panics on any other product. -/
lemma schedTicks_debug_of_not_fits (hfit : u64Max < vruntime * prioritySum) :
    Profile.debug.schedTicks vruntime priority prioritySum = .error .arithmetic := by
  have hsum : prioritySum ≠ 0 := by
    rintro rfl
    omega
  by_cases hprio : priority = 0
  · simp [Profile.schedTicks, hprio]
  · simp [Profile.schedTicks, Profile.mul, hprio, hsum, hfit]

/-- A release build always computes a `u64`. -/
lemma schedTicks_release (hprio : 0 < priority) :
    ∃ ticks, Profile.release.schedTicks vruntime priority prioritySum = .ok ticks := by
  have hne : priority ≠ 0 := by omega
  by_cases hsum : prioritySum = 0
  · exact ⟨0, by simp [Profile.schedTicks, hsum]⟩
  · exact ⟨_, by simp [Profile.schedTicks, Profile.mul, hne, hsum]; rfl⟩

lemma schedTicks_le (h : p.schedTicks vruntime priority prioritySum = .ok ticks) :
    ticks ≤ u64Max := by
  unfold Profile.schedTicks at h
  split at h
  · cases h
  · split at h
    · obtain rfl := Except.ok.inj h
      exact Nat.zero_le _
    · obtain ⟨product, hmul, h⟩ := bind_eq_ok.mp h
      have hproduct : product ≤ u64Max := by
        cases p with
        | debug =>
            rw [Profile.mul] at hmul
            split at hmul
            · cases hmul
            · obtain rfl := Except.ok.inj hmul
              omega
        | release =>
            obtain rfl := Except.ok.inj hmul
            exact Nat.le_of_lt_succ (Nat.mod_lt _ (Nat.succ_pos u64Max))
      split at h
      · cases h
      · obtain rfl := Except.ok.inj h
        exact (Nat.div_le_self ..).trans hproduct

end Ticks

/-! ### The model -/

/-- The statics of `src/runq.rs`, the memory of the nodes and the other fields of the threads. -/
structure RunqMem where
  tree : RBTree
  prioritySum : ℕ
  heap : Addr → RbNode
  entity : Addr → SchedEntity
  kind : Addr → ThreadKind
  state : Addr → ThreadState

/-- A failed tree operation as a fault. -/
def orFault {α : Type} : Option α → Except Fault α
  | none => .error .badPointer
  | some a => .ok a

@[simp] lemma orFault_some {α : Type} (a : α) : orFault (some a) = .ok a := rfl

namespace RunqMem

/-- `SchedEntity::cmp`. -/
def cmp (q : RunqMem) : Addr → Addr → Ordering := keyCmp (fun a => (q.entity a).vruntime) id

instance (q : RunqMem) : Std.TransCmp q.cmp := inferInstanceAs (Std.TransCmp (keyCmp _ _))

instance (q : RunqMem) : Std.LawfulEqCmp q.cmp := lawfulEqCmp_keyCmp _ Function.injective_id

/-- A tree value in the memory of the nodes: the run queue, or the local tree of the rebuild. -/
def treeMem (q : RunqMem) (tree : RBTree) : TreeMem := ⟨tree, q.heap⟩

def setEntity (q : RunqMem) (a : Addr) (e : SchedEntity) : RunqMem :=
  { q with entity := Function.update q.entity a e }

/-- `RBTree::pop_first` on the run queue. -/
def popFirst (q : RunqMem) : Except Fault (RunqMem × Ptr) := do
  let (s, popped) ← orFault (q.treeMem q.tree).popFirst
  .ok ({ q with tree := s.toRBTree, heap := s.heap }, popped)

/-- `RBTree::insert` on a tree value. -/
def insertInto (q : RunqMem) (tree : RBTree) (a : Addr) : Except Fault (RunqMem × RBTree) := do
  let s ← orFault ((q.treeMem tree).insert q.cmp a)
  .ok ({ q with heap := s.heap }, s.toRBTree)

/-- The loop of `enqueue_runq_from_waitq`, with the local tree `updated`. -/
def drain (p : Profile) : ℕ → RunqMem → RBTree → Except Fault (RunqMem × RBTree)
  | 0, _, _ => .error .hang
  | fuel + 1, q, updated => do
      let (q, popped) ← q.popFirst
      match popped with
      | none => .ok (q, updated)
      | some a =>
          let e := q.entity a
          let ticks ← p.schedTicks e.vruntime e.priority q.prioritySum
          let q := q.setEntity a { e with schedTickCnt := ticks }
          let (q, updated) ← q.insertInto updated a
          drain p fuel q updated

/-- `update_from_leftmost`. -/
def updateFromLeftmost (p : Profile) (q : RunqMem) (a : Addr) : Except Fault RunqMem := do
  match ← orFault (q.treeMem q.tree).first with
  | none => .ok q
  | some leftmost =>
      let e := { q.entity a with vruntime := (q.entity leftmost).vruntime }
      let ticks ← p.schedTicks e.vruntime e.priority q.prioritySum
      .ok (q.setEntity a { e with schedTickCnt := ticks })

/-- The end of `enqueue_runq_from_waitq`: align the entity with the left-most one and insert it. -/
def alignAndInsert (p : Profile) (q : RunqMem) (a : Addr) : Except Fault RunqMem := do
  let q ← q.updateFromLeftmost p a
  let (q, tree) ← q.insertInto q.tree a
  .ok { q with tree := tree }

/-- `enqueue_runq_from_waitq`. -/
def enqueueRunqFromWaitq (p : Profile) (q : RunqMem) (a : Addr) : Except Fault RunqMem := do
  if q.kind a ≠ .cfs then .error .badPointer
  else
    let prioritySum := satAdd32 q.prioritySum (q.entity a).priority
    if (← orFault ((q.treeMem q.tree).contains a)) then .error .alreadyLinked
    else
      let q := { q with heap := Function.update q.heap a RbNode.new, prioritySum := prioritySum }
      if !(q.state a).canTransitionTo .ready then .error .badTransition
      else
        let q := { q with state := Function.update q.state a .ready }
        let (q, updated) ← drain p (q.tree.len + 1) q RBTree.new
        { q with tree := updated }.alignAndInsert p a

end RunqMem

/-! ### The entities -/

/-- The order of the entities: by virtual runtime, then by address. -/
abbrev vruntimeCmp (entity : Addr → SchedEntity) : Addr → Addr → Ordering :=
  keyCmp (fun a => (entity a).vruntime) id

/-- The entities after the loop over the popped ones, or the error that stops it. -/
def recount (p : Profile) (prioritySum : ℕ) :
    List Addr → (Addr → SchedEntity) → Except Fault (Addr → SchedEntity)
  | [], entity => .ok entity
  | a :: l, entity => do
      let ticks ← p.schedTicks (entity a).vruntime (entity a).priority prioritySum
      recount p prioritySum l (Function.update entity a { entity a with schedTickCnt := ticks })

/-- The entities after `update_from_leftmost`, or its error. -/
def align (p : Profile) (prioritySum : ℕ) (leftmost : Ptr) (a : Addr)
    (entity : Addr → SchedEntity) : Except Fault (Addr → SchedEntity) :=
  match leftmost with
  | none => .ok entity
  | some b => do
      let ticks ← p.schedTicks (entity b).vruntime (entity a).priority prioritySum
      .ok (Function.update entity a
        { entity a with vruntime := (entity b).vruntime, schedTickCnt := ticks })

/-- The entities after `enqueue_runq_from_waitq`, or its error. -/
def rejoin (p : Profile) (prioritySum : ℕ) (l : List Addr) (a : Addr)
    (entity : Addr → SchedEntity) : Except Fault (Addr → SchedEntity) := do
  let entity ← recount p prioritySum l entity
  align p prioritySum l.head? a entity

/-- Only the tick counts of the entities of `l` have changed. -/
structure Recounted (p : Profile) (prioritySum : ℕ) (l : List Addr)
    (entity entity' : Addr → SchedEntity) : Prop where
  outside : ∀ a ∉ l, entity' a = entity a
  inside : ∀ a ∈ l, ∃ ticks,
    p.schedTicks (entity a).vruntime (entity a).priority prioritySum = .ok ticks ∧
    entity' a = { entity a with schedTickCnt := ticks }

section Entities

variable {p : Profile} {prioritySum : ℕ} {l : List Addr} {entity entity' : Addr → SchedEntity}

lemma schedTicks_ends {vruntime priority : ℕ} :
    Ends (· = .arithmetic) (p.schedTicks vruntime priority prioritySum) fun _ => True := by
  have hmul : Ends (· = .arithmetic) (p.mul vruntime prioritySum) fun _ => True := by
    cases p with
    | debug =>
        rw [Profile.mul]
        split
        · rfl
        · trivial
    | release => trivial
  unfold Profile.schedTicks
  split
  · rfl
  · split
    · trivial
    · refine hmul.bind fun product _ => ?_
      split
      · rfl
      · trivial

lemma Recounted.vruntime (h : Recounted p prioritySum l entity entity') (a : Addr) :
    (entity' a).vruntime = (entity a).vruntime := by
  by_cases ha : a ∈ l
  · obtain ⟨ticks, -, hticks⟩ := h.inside a ha
    rw [hticks]
  · rw [h.outside a ha]

lemma Recounted.priority (h : Recounted p prioritySum l entity entity') (a : Addr) :
    (entity' a).priority = (entity a).priority := by
  by_cases ha : a ∈ l
  · obtain ⟨ticks, -, hticks⟩ := h.inside a ha
    rw [hticks]
  · rw [h.outside a ha]

/-- The order depends on the virtual runtimes. -/
lemma vruntimeCmp_congr (h : ∀ a, (entity' a).vruntime = (entity a).vruntime) :
    vruntimeCmp entity' = vruntimeCmp entity := by
  unfold vruntimeCmp
  simp only [h]

/-- The loop changes the tick counts of the popped entities or stops at an arithmetic error. -/
lemma recount_ends (hnodup : l.Nodup) :
    Ends (· = .arithmetic) (recount p prioritySum l entity)
      (Recounted p prioritySum l entity) := by
  induction l generalizing entity with
  | nil => exact ⟨fun _ _ => rfl, fun _ ha => absurd ha List.not_mem_nil⟩
  | cons a l ih =>
      obtain ⟨hal, hnodup⟩ := List.nodup_cons.mp hnodup
      refine schedTicks_ends.named.bind fun ticks ⟨hticks, _⟩ => (ih hnodup).imp fun e' he' => ?_
      refine ⟨fun b hb => ?_, fun b hb => ?_⟩
      · obtain ⟨hba, hbl⟩ : b ≠ a ∧ b ∉ l := by simpa using hb
        rw [he'.outside b hbl, Function.update_of_ne hba]
      · by_cases hba : b = a
        · subst hba
          refine ⟨ticks, hticks, ?_⟩
          rw [he'.outside b hal, Function.update_self]
        · have hinside := he'.inside b ((List.mem_cons.mp hb).resolve_left hba)
          rwa [Function.update_of_ne hba] at hinside

/-- The loop runs to its end if every count can be computed. -/
lemma recount_ok (hnodup : l.Nodup) (hticks : ∀ a ∈ l, ∃ ticks,
    p.schedTicks (entity a).vruntime (entity a).priority prioritySum = .ok ticks) :
    ∃ entity', recount p prioritySum l entity = .ok entity' := by
  induction l generalizing entity with
  | nil => exact ⟨entity, rfl⟩
  | cons a l ih =>
      obtain ⟨hal, hnodup⟩ := List.nodup_cons.mp hnodup
      obtain ⟨ticks, ha⟩ := hticks a List.mem_cons_self
      rw [recount, ha, ok_bind]
      refine ih hnodup fun b hb => ?_
      have hba : b ≠ a := by
        rintro rfl
        exact hal hb
      rw [Function.update_of_ne hba]
      exact hticks b (List.mem_cons_of_mem a hb)

end Entities

/-! ### The pointer level -/

namespace RunqMem

variable {p : Profile} {q q' : RunqMem} {tree : RBTree} {l l₁ l₂ : List Addr} {a : Addr}

/-- The tree value holds the sequence `l` in the order of the virtual runtimes. -/
def Holds (q : RunqMem) (tree : RBTree) (l : List Addr) : Prop := (q.treeMem tree).Wf q.cmp l

/-- Besides the tree and the entities, only nodes of `l` have changed. -/
structure Within (l : List Addr) (q q' : RunqMem) : Prop where
  prioritySum : q'.prioritySum = q.prioritySum
  kind : q'.kind = q.kind
  state : q'.state = q.state
  heap : ∀ a ∉ l, q'.heap a = q.heap a

lemma Within.trans {q'' : RunqMem} (h : Within l q q') (h' : Within l q' q'') : Within l q q'' :=
  ⟨h'.prioritySum.trans h.prioritySum, h'.kind.trans h.kind, h'.state.trans h.state,
    fun a ha => (h'.heap a ha).trans (h.heap a ha)⟩

lemma Within.mono (h : Within l₁ q q') (hl : ∀ a ∈ l₁, a ∈ l) : Within l q q' :=
  ⟨h.prioritySum, h.kind, h.state, fun a ha => h.heap a fun ha' => ha (hl a ha')⟩

/-- A tree is kept by changes to other nodes and to the tick counts. -/
lemma Holds.congr (h : q.Holds tree l) (hheap : ∀ a ∈ l, q'.heap a = q.heap a)
    (hkey : ∀ a ∈ l, (q'.entity a).vruntime = (q.entity a).vruntime) : q'.Holds tree l := by
  refine TreeMem.Wf.congr h rfl hheap fun a ha b hb => ?_
  simp only [cmp, keyCmp, compareLex, compareOn, hkey a ha, hkey b hb]

lemma holds_new (q : RunqMem) : q.Holds RBTree.new [] :=
  ⟨⟨.nil, ⟨rfl, trivial, List.nodup_nil⟩, ⟨rfl, trivial, 0, Shape.blackHeight_nil.mpr rfl⟩, rfl⟩,
    rfl, .nil⟩

/-- **Specification of `pop_first`** on the run queue. -/
lemma popFirst_spec (h : q.Holds q.tree l) :
    ∃ q', q.popFirst = .ok (q', l.head?) ∧ q'.Holds q'.tree l.tail ∧ q'.entity = q.entity ∧
      Within l q q' := by
  obtain ⟨s, hrun, hs, -, hout⟩ := TreeMem.popFirst_spec h
  refine ⟨{ q with tree := s.toRBTree, heap := s.heap }, ?_, hs, rfl, rfl, rfl, rfl, hout⟩
  rw [popFirst, hrun, orFault_some, ok_bind]

/-- **Specification of `insert`** on a tree value. -/
lemma insertInto_spec (h : q.Holds tree l) (ha : a ∉ l) :
    ∃ q' tree', q.insertInto tree a = .ok (q', tree') ∧
      q'.Holds tree' (ordInsert (vruntimeCmp q.entity) a l) ∧ q'.entity = q.entity ∧
      q'.tree = q.tree ∧ Within (a :: l) q q' := by
  obtain ⟨s, hrun, hs, hout⟩ := TreeMem.insert_spec h ha
  refine ⟨{ q with heap := s.heap }, s.toRBTree, ?_, hs, rfl, rfl, rfl, rfl, rfl, fun b hb => ?_⟩
  · rw [insertInto, hrun, orFault_some, ok_bind]
  · obtain ⟨hba, hbl⟩ : b ≠ a ∧ b ∉ l := by simpa using hb
    exact hout b hba hbl

lemma setEntity_self (q : RunqMem) (a : Addr) (e : SchedEntity) :
    (q.setEntity a e).entity a = e := Function.update_self ..

lemma setEntity_of_ne (q : RunqMem) {b : Addr} (hba : b ≠ a) (e : SchedEntity) :
    (q.setEntity a e).entity b = q.entity b := Function.update_of_ne hba ..

/-- The state of the loop: `l₁` is in the local tree, `l₂` still in the run queue. -/
structure Draining (q : RunqMem) (updated : RBTree) (l₁ l₂ : List Addr) : Prop where
  increasing : Increasing q.cmp (l₁ ++ l₂)
  updated : q.Holds updated l₁
  tree : q.Holds q.tree l₂

/-- One turn of the loop: the first node of the run queue goes to the end of the local tree,
whatever its new tick count. -/
lemma turn_spec {updated : RBTree} (h : Draining q updated l₁ (a :: l₂)) :
    ∃ q₁, q.popFirst = .ok (q₁, some a) ∧ q₁.entity = q.entity ∧
      q₁.prioritySum = q.prioritySum ∧
      ∀ e : SchedEntity, e.vruntime = (q.entity a).vruntime →
        ∃ q₂ updated₂, (q₁.setEntity a e).insertInto updated a = .ok (q₂, updated₂) ∧
          Draining q₂ updated₂ (l₁ ++ [a]) l₂ ∧ q₂.entity = Function.update q.entity a e ∧
          Within (l₁ ++ a :: l₂) q q₂ := by
  obtain ⟨-, hnodup₂, hdisj⟩ := List.nodup_append.mp (Increasing.nodup h.increasing)
  have ha₁ : a ∉ l₁ := fun ha => hdisj a ha a List.mem_cons_self rfl
  have ha₂ : a ∉ l₂ := (List.nodup_cons.mp hnodup₂).1
  obtain ⟨q₁, hpop, htree₁, hent₁, hw₁⟩ := popFirst_spec h.tree
  refine ⟨q₁, hpop, hent₁, hw₁.prioritySum, fun e he => ?_⟩
  have hkey : ∀ b, ((q₁.setEntity a e).entity b).vruntime = (q.entity b).vruntime := by
    intro b
    by_cases hba : b = a
    · rw [hba, setEntity_self, he]
    · rw [setEntity_of_ne _ hba, hent₁]
  -- the popped nodes are not those of the local tree
  have hupd₁ : (q₁.setEntity a e).Holds updated l₁ :=
    h.updated.congr (fun b hb => hw₁.heap b fun hb' => hdisj b hb b hb' rfl) fun b _ => hkey b
  obtain ⟨q₂, updated₂, hins, hupd₂, hent₂, htree₂, hw₂⟩ := insertInto_spec hupd₁ ha₁
  have hkey₂ : ∀ b, (q₂.entity b).vruntime = (q.entity b).vruntime := fun b => by rw [hent₂, hkey]
  have hcmp₂ : q₂.cmp = q.cmp := vruntimeCmp_congr hkey₂
  refine ⟨q₂, updated₂, hins, ⟨?_, ?_, ?_⟩, ?_, ?_⟩
  · rw [hcmp₂, List.append_assoc]
    exact h.increasing
  · -- the new node is above all that are in the local tree
    have hlast : ordInsert q.cmp a (l₁ ++ []) = l₁ ++ [a] :=
      ordInsert_append (fun b hb => cmp_lt_asymm
        ((List.pairwise_append.mp h.increasing).2.2 b hb a List.mem_cons_self)) (by simp)
    rw [List.append_nil] at hlast
    rw [← hlast]
    rwa [vruntimeCmp_congr hkey] at hupd₂
  · rw [htree₂]
    refine Holds.congr htree₁ (fun b hb => hw₂.heap b fun hb' => ?_) fun b _ => ?_
    · rcases List.mem_cons.mp hb' with rfl | hb'
      · exact ha₂ hb
      · exact hdisj b hb' b (List.mem_cons_of_mem a hb) rfl
    · rw [hkey₂, hent₁]
  · rw [hent₂, setEntity, hent₁]
  · refine ⟨hw₂.prioritySum.trans hw₁.prioritySum, hw₂.kind.trans hw₁.kind,
      hw₂.state.trans hw₁.state, fun b hb => ?_⟩
    simp only [List.mem_append, List.mem_cons, not_or] at hb
    have hb₂ : b ∉ a :: l₁ := by simp [hb]
    have hb₁ : b ∉ a :: l₂ := by simp [hb]
    exact (hw₂.heap b hb₂).trans (hw₁.heap b hb₁)

/-- **The loop**: it ends with every node in the local tree, in the same order, and with the
entities recounted; it fails only if the recount does. -/
lemma drain_spec {updated : RBTree} {fuel : ℕ} (h : Draining q updated l₁ l₂)
    (hfuel : l₂.length < fuel) :
    (∀ f, recount p q.prioritySum l₂ q.entity = .error f → drain p fuel q updated = .error f) ∧
    ∀ entity, recount p q.prioritySum l₂ q.entity = .ok entity →
      ∃ q' updated', drain p fuel q updated = .ok (q', updated') ∧ q'.Holds updated' (l₁ ++ l₂) ∧
        q'.entity = entity ∧ Within (l₁ ++ l₂) q q' := by
  induction l₂ generalizing l₁ q updated fuel with
  | nil =>
      obtain ⟨fuel, rfl⟩ : ∃ m, fuel = m + 1 := ⟨fuel - 1, by omega⟩
      obtain ⟨q₁, hpop, -, hent₁, hw₁⟩ := popFirst_spec h.tree
      refine ⟨fun f hf => (by cases hf), fun entity hent => ?_⟩
      obtain rfl := Except.ok.inj hent
      refine ⟨q₁, updated, ?_, ?_, hent₁, hw₁.mono (by simp)⟩
      · rw [drain, hpop, ok_bind]
        rfl
      · rw [List.append_nil]
        exact h.updated.congr (fun a _ => hw₁.heap a List.not_mem_nil) fun a _ => by rw [hent₁]
  | cons a l₂ ih =>
      obtain ⟨fuel, rfl⟩ : ∃ m, fuel = m + 1 := ⟨fuel - 1, by omega⟩
      obtain ⟨q₁, hpop, hent₁, hsum₁, hturn⟩ := turn_spec h
      rw [drain, hpop, ok_bind]
      simp only [hent₁, hsum₁]
      rw [recount]
      cases hticks : p.schedTicks (q.entity a).vruntime (q.entity a).priority q.prioritySum with
      | error f =>
          refine ⟨fun f' hf' => ?_, fun entity hent => by cases hent⟩
          obtain rfl := Except.error.inj hf'
          rfl
      | ok ticks =>
          obtain ⟨q₂, updated₂, hins, h₂, hent₂, hw₂⟩ :=
            hturn { q.entity a with schedTickCnt := ticks } rfl
          have hrest := ih h₂ (by simp only [List.length_cons] at hfuel; omega : l₂.length < fuel)
          rw [hw₂.prioritySum, hent₂] at hrest
          rw [ok_bind, ok_bind, hins, ok_bind]
          refine ⟨hrest.1, fun entity hent => ?_⟩
          obtain ⟨q₃, updated₃, hrun, hupd₃, hent₃, hw₃⟩ := hrest.2 entity hent
          rw [List.append_assoc] at hupd₃ hw₃
          exact ⟨q₃, updated₃, hrun, hupd₃, hent₃, hw₂.trans hw₃⟩

/-- **Specification of `update_from_leftmost`.** -/
lemma updateFromLeftmost_spec (h : q.Holds q.tree l) : q.updateFromLeftmost p a =
    (align p q.prioritySum l.head? a q.entity >>= fun entity =>
      .ok { q with entity := entity }) := by
  have hfirst : (q.treeMem q.tree).first = some l.head? := TreeMem.Wf.first h
  rw [updateFromLeftmost, hfirst, orFault_some, ok_bind]
  cases l.head? with
  | none => rfl
  | some b =>
      simp only [align]
      cases p.schedTicks (q.entity b).vruntime (q.entity a).priority q.prioritySum with
      | error f => rfl
      | ok ticks => rfl

lemma align_keeps {prioritySum : ℕ} {leftmost : Ptr} {entity entity' : Addr → SchedEntity}
    (h : align p prioritySum leftmost a entity = .ok entity') {b : Addr} (hba : b ≠ a) :
    entity' b = entity b := by
  cases leftmost with
  | none =>
      obtain rfl := Except.ok.inj h
      rfl
  | some c =>
      obtain ⟨ticks, -, h⟩ := bind_eq_ok.mp h
      obtain rfl := Except.ok.inj h
      exact Function.update_of_ne hba ..

/-- The woken entity is aligned and linked; it fails only if its tick count cannot be computed. -/
lemma alignAndInsert_spec (h : q.Holds q.tree l) (ha : a ∉ l) :
    (∀ f, align p q.prioritySum l.head? a q.entity = .error f →
      q.alignAndInsert p a = .error f) ∧
    ∀ entity, align p q.prioritySum l.head? a q.entity = .ok entity →
      ∃ q', q.alignAndInsert p a = .ok q' ∧
        q'.Holds q'.tree (ordInsert (vruntimeCmp entity) a l) ∧ q'.entity = entity ∧
        Within (a :: l) q q' := by
  rw [alignAndInsert, updateFromLeftmost_spec h]
  refine ⟨fun f hf => by rw [hf]; rfl, fun entity hent => ?_⟩
  have h₁ : { q with entity := entity }.Holds q.tree l := by
    refine Holds.congr h (fun _ _ => rfl) fun b hb => ?_
    have hba : b ≠ a := by
      rintro rfl
      exact ha hb
    exact congrArg SchedEntity.vruntime (align_keeps hent hba)
  obtain ⟨q₂, tree₂, hins, h₂, hent₂, -, hw₂⟩ := insertInto_spec h₁ ha
  refine ⟨{ q₂ with tree := tree₂ }, ?_, h₂, hent₂,
    ⟨hw₂.prioritySum, hw₂.kind, hw₂.state, hw₂.heap⟩⟩
  rw [hent, ok_bind, ok_bind]
  simp only [hins, ok_bind]

/-- **Specification of `enqueue_runq_from_waitq`**, for a detached CFS thread: it fails only if the
entities cannot be computed, and else the thread is linked at its place among the others. -/
lemma enqueueRunqFromWaitq_spec (h : q.Holds q.tree l) (ha : a ∉ l) (hkind : q.kind a = .cfs) :
    (∀ f, rejoin p (satAdd32 q.prioritySum (q.entity a).priority) l a q.entity = .error f →
      q.enqueueRunqFromWaitq p a = .error f) ∧
    ∀ entity, rejoin p (satAdd32 q.prioritySum (q.entity a).priority) l a q.entity = .ok entity →
      ∃ q', q.enqueueRunqFromWaitq p a = .ok q' ∧
        q'.Holds q'.tree (ordInsert (vruntimeCmp entity) a l) ∧ q'.entity = entity ∧
        q'.prioritySum = satAdd32 q.prioritySum (q.entity a).priority ∧ q'.kind = q.kind ∧
        q'.state = Function.update q.state a .ready ∧ ∀ b ∉ a :: l, q'.heap b = q.heap b := by
  have hcont : (q.treeMem q.tree).contains a = some false := by
    rw [TreeMem.Wf.contains h, decide_eq_false ha]
  have hready : (q.state a).canTransitionTo .ready = true := by cases q.state a <;> rfl
  -- the state in which the loop starts
  obtain ⟨q₀, hq₀⟩ : ∃ q₀ : RunqMem, q₀ = { q with
      heap := Function.update q.heap a RbNode.new
      prioritySum := satAdd32 q.prioritySum (q.entity a).priority
      state := Function.update q.state a .ready } := ⟨_, rfl⟩
  have hheap₀ : ∀ b, b ≠ a → q₀.heap b = q.heap b := fun b hba => by
    rw [hq₀]
    exact Function.update_of_ne hba ..
  have hent₀ : q₀.entity = q.entity := by rw [hq₀]
  have hsum₀ : q₀.prioritySum = satAdd32 q.prioritySum (q.entity a).priority := by rw [hq₀]
  have htree₀ : q₀.tree = q.tree := by rw [hq₀]
  have hdrain : Draining q₀ RBTree.new [] l := by
    refine ⟨?_, holds_new q₀, ?_⟩
    · rw [List.nil_append, hq₀]
      exact TreeMem.Wf.sorted h
    · rw [htree₀]
      refine Holds.congr h (fun b hb => hheap₀ b ?_) fun b _ => by rw [hent₀]
      rintro rfl
      exact ha hb
  have hfuel : l.length < q₀.tree.len + 1 := by
    have hlen : q.tree.len = l.length := TreeMem.Wf.len h
    rw [htree₀, hlen]
    omega
  have hrun : q.enqueueRunqFromWaitq p a = (drain p (q₀.tree.len + 1) q₀ RBTree.new >>=
      fun r => { r.1 with tree := r.2 }.alignAndInsert p a) := by
    rw [enqueueRunqFromWaitq, if_neg (by simp [hkind]), hcont, hq₀]
    simp only [orFault_some, ok_bind, hready, Bool.false_eq_true, if_false, Bool.not_true]
  have hloop := drain_spec (p := p) hdrain hfuel
  rw [hsum₀, hent₀, List.nil_append] at hloop
  rw [hrun]
  unfold rejoin
  cases hrecount : recount p (satAdd32 q.prioritySum (q.entity a).priority) l q.entity with
  | error f =>
      refine ⟨fun f' hf' => ?_, fun entity hent => by cases hent⟩
      obtain rfl := Except.error.inj hf'
      rw [hloop.1 f hrecount, error_bind]
  | ok entity₁ =>
      obtain ⟨q₁, updated, hrun₁, hupd, rfl, hw₁⟩ := hloop.2 entity₁ hrecount
      have hjoin := alignAndInsert_spec (p := p) (q := { q₁ with tree := updated }) hupd ha
      rw [hrun₁, ok_bind, ok_bind, ← hsum₀, ← hw₁.prioritySum]
      refine ⟨hjoin.1, fun entity hent => ?_⟩
      obtain ⟨q₂, hrun₂, hq₂, hent₂, hw₂⟩ := hjoin.2 entity hent
      refine ⟨q₂, hrun₂, hq₂, hent₂, hw₂.prioritySum, hw₂.kind.trans (hw₁.kind.trans ?_),
        hw₂.state.trans (hw₁.state.trans ?_), fun b hb => ?_⟩
      · rw [hq₀]
      · rw [hq₀]
      · obtain ⟨hba, hbl⟩ : b ≠ a ∧ b ∉ l := by simpa using hb
        exact (hw₂.heap b hb).trans ((hw₁.heap b hbl).trans (hheap₀ b hba))

end RunqMem

/-! ### The sequence level -/

namespace RunQueue

/-- The loop on sequences. -/
lemma rebuild_eq (popped : List Tid) : ∀ r : RunQueue, Increasing r.cmp (r.tree ++ popped) →
    r.rebuild popped = (recount .debug r.prioritySum popped r.entity >>= fun entity =>
      .ok ⟨r.tree ++ popped, r.prioritySum, entity⟩) := by
  induction popped with
  | nil =>
      intro r _
      rw [rebuild, recount, ok_bind, List.append_nil]
  | cons t popped ih =>
      intro r hinc
      rw [rebuild, recount, schedTicks_debug]
      cases cfsSchedTicksFromVruntime (r.entity t).vruntime (r.entity t).priority
        r.prioritySum with
      | error f => rfl
      | ok ticks =>
          have hnodup : (r.tree ++ t :: popped).Nodup := Increasing.nodup hinc
          have ht : t ∉ r.tree := fun h =>
            (List.nodup_append.mp hnodup).2.2 t h t List.mem_cons_self rfl
          obtain ⟨r₁, hr₁⟩ : ∃ r₁, r₁ = r.setEntity t { r.entity t with schedTickCnt := ticks } :=
            ⟨_, rfl⟩
          have hcmp : r₁.cmp = r.cmp := by
            rw [hr₁]
            refine vruntimeCmp_congr fun u => ?_
            by_cases hut : u = t
            · rw [hut, setEntity_self]
            · rw [setEntity_of_ne _ hut]
          have hlast : ordInsert r.cmp t (r.tree ++ []) = r.tree ++ [t] :=
            ordInsert_append (fun u hu => cmp_lt_asymm
              ((List.pairwise_append.mp hinc).2.2 u hu t List.mem_cons_self)) (by simp)
          have hins : r₁.insert t = .ok { r₁ with tree := r.tree ++ [t] } := by
            have htree : r₁.tree = r.tree := by
              rw [hr₁]
              rfl
            rw [List.append_nil] at hlast
            rw [insert, htree, link_of_notMem ht, hcmp, hlast, ok_bind]
          have hrest := ih { r₁ with tree := r.tree ++ [t] } <| by
            have hinc' : Increasing r₁.cmp ((r.tree ++ [t]) ++ popped) := by
              rw [hcmp, List.append_assoc]
              exact hinc
            exact hinc'
          have hent : r₁.entity =
              Function.update r.entity t { r.entity t with schedTickCnt := ticks } := by
            rw [hr₁]
            rfl
          have hsum : r₁.prioritySum = r.prioritySum := by
            rw [hr₁]
            rfl
          have hstep : (r₁.insert t >>= fun r => r.rebuild popped) =
              (recount .debug r.prioritySum popped (Function.update r.entity t
                { r.entity t with schedTickCnt := ticks }) >>= fun entity =>
                .ok ⟨r.tree ++ t :: popped, r.prioritySum, entity⟩) := by
            rw [hins, ok_bind, hrest, hent, hsum, List.append_assoc]
            rfl
          rw [hr₁] at hstep
          exact hstep

/-- `update_from_leftmost` on sequences. -/
lemma updateFromLeftmost_eq (r : RunQueue) (t : Tid) : r.updateFromLeftmost t =
    (align .debug r.prioritySum r.tree.head? t r.entity >>= fun entity =>
      .ok { r with entity := entity }) := by
  unfold updateFromLeftmost align
  cases r.tree.head? with
  | none => rfl
  | some l =>
      simp only [schedTicks_debug]
      cases cfsSchedTicksFromVruntime (r.entity l).vruntime (r.entity t).priority
        r.prioritySum with
      | error f => rfl
      | ok ticks => rfl

/-- `enqueue_runq_from_waitq` on sequences: the entities are recounted and the thread joins at its
place among the others. -/
lemma enqueueFromWaitq_eq {r : RunQueue} {t : Tid} (h : r.Ordered) (ht : t ∉ r.tree) :
    r.enqueueFromWaitq t =
      (rejoin .debug (satAdd32 r.prioritySum (r.entity t).priority) r.tree t r.entity >>=
        fun entity => .ok ⟨ordInsert (vruntimeCmp entity) t r.tree,
          satAdd32 r.prioritySum (r.entity t).priority, entity⟩) := by
  have hloop := rebuild_eq r.tree ⟨[], satAdd32 r.prioritySum (r.entity t).priority, r.entity⟩ h
  rw [enqueueFromWaitq, if_neg ht, rejoin]
  simp only [hloop]
  cases recount .debug (satAdd32 r.prioritySum (r.entity t).priority) r.tree r.entity with
  | error f => rfl
  | ok entity₁ =>
      simp only [ok_bind, updateFromLeftmost_eq, List.nil_append]
      cases align .debug (satAdd32 r.prioritySum (r.entity t).priority) r.tree.head? t entity₁ with
      | error f => rfl
      | ok entity₂ =>
          rw [ok_bind, ok_bind, insert, link_of_notMem ht, ok_bind]
          rfl

end RunQueue

namespace RunqMem

variable {p : Profile} {q q' : RunqMem} {l : List Addr} {a : Addr}

/-- The run queue as the sequence `l`. -/
def runQueue (q : RunqMem) (l : List Addr) : RunQueue := ⟨l, q.prioritySum, q.entity⟩

/-- **Refinement**: in a debug build the function on pointers does to the tree and the entities what
`RunQueue.enqueueFromWaitq` does to the sequence, errors included. -/
theorem enqueueRunqFromWaitq_refines (h : q.Holds q.tree l) (ha : a ∉ l) (hkind : q.kind a = .cfs) :
    (∀ f, (q.runQueue l).enqueueFromWaitq a = .error f →
      q.enqueueRunqFromWaitq .debug a = .error f) ∧
    ∀ r, (q.runQueue l).enqueueFromWaitq a = .ok r →
      ∃ q', q.enqueueRunqFromWaitq .debug a = .ok q' ∧ q'.Holds q'.tree r.tree ∧
        q'.runQueue r.tree = r := by
  have hordered : (q.runQueue l).Ordered := TreeMem.Wf.sorted h
  have hspec := enqueueRunqFromWaitq_spec (p := .debug) h ha hkind
  rw [RunQueue.enqueueFromWaitq_eq hordered ha]
  refine ⟨fun f hf => hspec.1 f ?_, fun r hr => ?_⟩
  · simp only [runQueue] at hf
    cases hjoin : rejoin .debug (satAdd32 q.prioritySum (q.entity a).priority) l a q.entity with
    | error f' =>
        obtain rfl : f' = f := by simpa [hjoin] using hf
        rfl
    | ok entity =>
        rw [hjoin] at hf
        cases hf
  · obtain ⟨entity, hjoin, hr⟩ := bind_eq_ok.mp hr
    obtain rfl := Except.ok.inj hr
    obtain ⟨q', hrun, hq', hent, hsum, -⟩ := hspec.2 entity hjoin
    refine ⟨q', hrun, hq', ?_⟩
    rw [runQueue, hsum, hent]
    rfl

/-- A well-formed run queue: an ordered tree of CFS threads whose fields are in range. -/
structure Wf (q : RunqMem) (l : List Addr) : Prop where
  tree : q.Holds q.tree l
  cfs : ∀ a ∈ l, q.kind a = .cfs
  valid : ∀ a, q.kind a = .cfs → (q.entity a).Valid
  prioritySum : q.prioritySum ≤ u32Max

/-- The thread `a` has joined the run queue `l`, which has been recounted. -/
structure Rebuilt (a : Addr) (l : List Addr) (q q' : RunqMem) (l' : List Addr) : Prop where
  wf : q'.Wf l'
  mem : ∀ b, b ∈ l' ↔ b ∈ l ∨ b = a
  order : l'.erase a = l
  vruntime : ∀ b, b ≠ a → (q'.entity b).vruntime = (q.entity b).vruntime
  joined : (q'.entity a).vruntime = (q.entity (l.head?.getD a)).vruntime
  priority : ∀ b, (q'.entity b).priority = (q.entity b).priority
  prioritySum : q'.prioritySum = satAdd32 q.prioritySum (q.entity a).priority
  ticks : ∀ b, b ∈ l ∨ (b = a ∧ l ≠ []) → (q'.entity b).Fits q'.prioritySum →
    (q'.entity b).schedTickCnt =
      (q'.entity b).vruntime * q'.prioritySum / (q'.entity b).priority
  ready : q'.state = Function.update q.state a .ready
  frame : ∀ b ∉ a :: l, q'.entity b = q.entity b ∧ q'.heap b = q.heap b

/-- The counts of a well-formed queue can be computed in a release build, and in any build if the
products fit. -/
lemma rejoin_ok {prioritySum : ℕ} {entity : Addr → SchedEntity} (hnodup : l.Nodup)
    (hpos : ∀ b, b ∈ l ∨ b = a → 0 < (entity b).priority)
    (hfits : p = .release ∨ ∀ b ∈ l, (entity b).Fits prioritySum) :
    ∃ entity', rejoin p prioritySum l a entity = .ok entity' := by
  have hticks : ∀ b ∈ l, ∀ priority, 0 < priority →
      ∃ ticks, p.schedTicks (entity b).vruntime priority prioritySum = .ok ticks := by
    intro b hb priority hpos
    rcases hfits with rfl | hfits
    · exact schedTicks_release hpos
    · exact ⟨_, schedTicks_of_fits hpos (hfits b hb)⟩
  obtain ⟨entity₁, h₁⟩ := recount_ok hnodup fun b hb => hticks b hb _ (hpos b (Or.inl hb))
  have hrecounted := (recount_ends hnodup).value h₁
  rw [rejoin, h₁, ok_bind]
  cases hhead : l.head? with
  | none => exact ⟨entity₁, rfl⟩
  | some b =>
      -- the product of the woken thread is that of the left-most one
      obtain ⟨ticks, hticks⟩ := hticks b (List.mem_of_mem_head? hhead) _ (hpos a (Or.inr rfl))
      rw [align, hrecounted.vruntime, hrecounted.priority, hticks]
      exact ⟨_, rfl⟩

/-- A debug build panics if a product does not fit. -/
lemma rejoin_error {prioritySum : ℕ} {entity : Addr → SchedEntity} (hnodup : l.Nodup) {b : Addr}
    (hb : b ∈ l) (hfit : ¬ (entity b).Fits prioritySum) :
    rejoin .debug prioritySum l a entity = .error .arithmetic := by
  rw [rejoin]
  cases hrun : recount .debug prioritySum l entity with
  | error f =>
      obtain rfl := (recount_ends hnodup).error hrun
      rfl
  | ok entity' =>
      obtain ⟨ticks, hticks, -⟩ := ((recount_ends hnodup).value hrun).inside b hb
      rw [schedTicks_debug_of_not_fits (not_le.mp hfit)] at hticks
      cases hticks

/-- What the rejoin of the thread `a` does to the entities. -/
structure Rejoined (p : Profile) (prioritySum : ℕ) (l : List Addr) (a : Addr)
    (entity entity' : Addr → SchedEntity) : Prop where
  outside : ∀ b ∉ a :: l, entity' b = entity b
  queued : ∀ b ∈ l, ∃ ticks,
    p.schedTicks (entity b).vruntime (entity b).priority prioritySum = .ok ticks ∧
    entity' b = { entity b with schedTickCnt := ticks }
  alone : l = [] → entity' a = entity a
  aligned : ∀ c ∈ l.head?, ∃ ticks,
    p.schedTicks (entity c).vruntime (entity a).priority prioritySum = .ok ticks ∧
    entity' a = { entity a with vruntime := (entity c).vruntime, schedTickCnt := ticks }

lemma rejoined_of_rejoin {prioritySum : ℕ} {entity entity' : Addr → SchedEntity} (hnodup : l.Nodup)
    (ha : a ∉ l) (h : rejoin p prioritySum l a entity = .ok entity') :
    Rejoined p prioritySum l a entity entity' := by
  obtain ⟨entity₁, h₁, halign⟩ := bind_eq_ok.mp h
  have hrecounted := (recount_ends hnodup).value h₁
  refine ⟨fun b hb => ?_, fun b hb => ?_, fun hnil => ?_, fun c hc => ?_⟩
  · obtain ⟨hba, hbl⟩ : b ≠ a ∧ b ∉ l := by simpa using hb
    rw [align_keeps halign hba, hrecounted.outside b hbl]
  · have hba : b ≠ a := by
      rintro rfl
      exact ha hb
    rw [align_keeps halign hba]
    exact hrecounted.inside b hb
  · rw [hnil] at halign
    obtain rfl := Except.ok.inj halign
    exact hrecounted.outside a ha
  · rw [Option.mem_def.mp hc, align] at halign
    obtain ⟨ticks, hticks, halign⟩ := bind_eq_ok.mp halign
    obtain rfl := Except.ok.inj halign
    rw [hrecounted.vruntime, hrecounted.priority] at hticks
    refine ⟨ticks, hticks, ?_⟩
    rw [Function.update_self, hrecounted.vruntime, hrecounted.outside a ha]

namespace Rejoined

variable {prioritySum : ℕ} {entity entity' : Addr → SchedEntity}

lemma joined (h : Rejoined p prioritySum l a entity entity') :
    (entity' a).vruntime = (entity (l.head?.getD a)).vruntime := by
  cases l with
  | nil => rw [h.alone rfl, List.head?_nil, Option.getD_none]
  | cons c l =>
      obtain ⟨ticks, -, hent⟩ := h.aligned c rfl
      rw [hent, List.head?_cons, Option.getD_some]

lemma vruntime (h : Rejoined p prioritySum l a entity entity') {b : Addr} (hba : b ≠ a) :
    (entity' b).vruntime = (entity b).vruntime := by
  by_cases hb : b ∈ l
  · obtain ⟨ticks, -, hent⟩ := h.queued b hb
    rw [hent]
  · rw [h.outside b (by simp [hba, hb])]

/-- The rejoining thread keeps its entity or has its virtual runtime and its count changed. -/
lemma self (h : Rejoined p prioritySum l a entity entity') :
    (entity' a = entity a ∧ l = []) ∨ ∃ c ∈ l, ∃ ticks,
      p.schedTicks (entity c).vruntime (entity a).priority prioritySum = .ok ticks ∧
      entity' a = { entity a with vruntime := (entity c).vruntime, schedTickCnt := ticks } := by
  cases l with
  | nil => exact Or.inl ⟨h.alone rfl, rfl⟩
  | cons c l => exact Or.inr ⟨c, List.mem_cons_self, h.aligned c rfl⟩

lemma priority (h : Rejoined p prioritySum l a entity entity') (b : Addr) :
    (entity' b).priority = (entity b).priority := by
  by_cases hba : b = a
  · subst hba
    rcases h.self with ⟨hent, -⟩ | ⟨c, -, ticks, -, hent⟩
    · rw [hent]
    · rw [hent]
  · by_cases hb : b ∈ l
    · obtain ⟨ticks, -, hent⟩ := h.queued b hb
      rw [hent]
    · rw [h.outside b (by simp [hba, hb])]

/-- A new count is the one that the new fields give. -/
lemma ticks (h : Rejoined p prioritySum l a entity entity') {b : Addr}
    (hb : b ∈ l ∨ (b = a ∧ l ≠ [])) :
    p.schedTicks (entity' b).vruntime (entity' b).priority prioritySum =
      .ok (entity' b).schedTickCnt := by
  rcases hb with hb | ⟨rfl, hne⟩
  · obtain ⟨ticks, hticks, hent⟩ := h.queued b hb
    rw [hent]
    exact hticks
  · rcases h.self with ⟨-, hnil⟩ | ⟨c, -, ticks, hticks, hent⟩
    · exact absurd hnil hne
    · rw [hent]
      exact hticks

lemma valid (h : Rejoined p prioritySum l a entity entity') {K : Addr → Prop}
    (hK : ∀ b, K b → (entity b).Valid) (hl : ∀ b ∈ l, K b) {b : Addr} (hb : K b) :
    (entity' b).Valid := by
  by_cases hnew : b ∈ l ∨ (b = a ∧ l ≠ [])
  · refine ⟨schedTicks_le (h.ticks hnew), ?_, ?_, ?_⟩
    · by_cases hba : b = a
      · subst hba
        rcases h.self with ⟨hent, -⟩ | ⟨c, hc, ticks, -, hent⟩
        · rw [hent]
          exact (hK b hb).vruntime
        · rw [hent]
          exact (hK c (hl c hc)).vruntime
      · rw [h.vruntime hba]
        exact (hK b hb).vruntime
    · rw [h.priority]
      exact (hK b hb).priority
    · rw [h.priority]
      exact (hK b hb).priority_pos
  · simp only [not_or, not_and, not_not] at hnew
    have hent : entity' b = entity b := by
      by_cases hba : b = a
      · rw [hba]
        exact h.alone (hnew.2 hba)
      · exact h.outside b (by simp [hba, hnew.1])
    rw [hent]
    exact hK b hb

end Rejoined

/-- **Waking a CFS thread rebuilds the run queue.**  For every well-formed run queue and every CFS
thread that is not in it, `enqueue_runq_from_waitq` returns a well-formed queue with the old
threads, in their old order and with their old virtual runtimes, and the woken one, whose virtual
runtime is that of the first of them, if any; the priorities add up, saturating, and the tick counts
follow from the new sum wherever the product fits in `u64`.  A release build returns always; a debug
build returns unless one of these products does not fit, and then panics. -/
theorem enqueueRunqFromWaitq_rebuilds (p : Profile) (q : RunqMem) (l : List Addr) (a : Addr)
    (hq : q.Wf l) (ha : a ∉ l) (hkind : q.kind a = .cfs) :
    ((p = .release ∨ ∀ b ∈ l, (q.entity b).Fits (satAdd32 q.prioritySum (q.entity a).priority)) →
      ∃ q' l', q.enqueueRunqFromWaitq p a = .ok q' ∧ Rebuilt a l q q' l') ∧
    (p = .debug →
      (∃ b ∈ l, ¬ (q.entity b).Fits (satAdd32 q.prioritySum (q.entity a).priority)) →
      q.enqueueRunqFromWaitq p a = .error .arithmetic) := by
  have hnodup : l.Nodup := Increasing.nodup (TreeMem.Wf.sorted hq.tree)
  have hspec := enqueueRunqFromWaitq_spec (p := p) hq.tree ha hkind
  refine ⟨fun hfits => ?_, ?_⟩
  · have hpos : ∀ b, b ∈ l ∨ b = a → 0 < (q.entity b).priority := by
      rintro b (hb | rfl)
      · exact (hq.valid b (hq.cfs b hb)).priority_pos
      · exact (hq.valid b hkind).priority_pos
    obtain ⟨entity, hrejoin⟩ := rejoin_ok hnodup hpos hfits
    have hr := rejoined_of_rejoin hnodup ha hrejoin
    obtain ⟨q', hrun, htree, rfl, hsum, hkinds, hstate, hheap⟩ := hspec.2 entity hrejoin
    have hmem : ∀ b, b ∈ ordInsert (vruntimeCmp q'.entity) a l ↔ b ∈ l ∨ b = a := fun b => by
      rw [mem_ordInsert, or_comm]
    refine ⟨q', _, hrun, ⟨⟨htree, fun b hb => ?_, fun b hb => ?_, ?_⟩, hmem, ?_,
      fun b => hr.vruntime, hr.joined, hr.priority, hsum, fun b hb hfit => ?_, hstate,
      fun b hb => ⟨hr.outside b hb, hheap b hb⟩⟩⟩
    · rw [hkinds]
      rcases (hmem b).mp hb with hb | rfl
      · exact hq.cfs b hb
      · exact hkind
    · rw [hkinds] at hb
      exact hr.valid (K := fun b => q.kind b = .cfs) hq.valid hq.cfs hb
    · rw [hsum]
      exact Nat.min_le_right ..
    · exact List.erase_orderedInsert_of_notMem ha
    · have hticks := hr.ticks hb
      rw [← hsum, schedTicks_of_fits ?_ hfit] at hticks
      · exact (Except.ok.inj hticks).symm
      · rw [hr.priority]
        refine hpos b ?_
        tauto
  · rintro rfl ⟨b, hb, hfit⟩
    exact hspec.1 _ (rejoin_error hnodup hb hfit)

/-- A run queue of two threads. -/
def pair : RunqMem where
  tree := ⟨some 3, 2⟩
  prioritySum := 6
  heap := fun a => if a = 3 then ⟨none, none, some 5, .black⟩
    else if a = 5 then ⟨some 3, none, none, .red⟩ else RbNode.new
  entity := fun a => if a = 3 then ⟨0, 10, 2⟩ else if a = 5 then ⟨0, 20, 4⟩ else ⟨0, 1, 4⟩
  kind := fun _ => .cfs
  state := fun a => if a = 7 then .waiting else .ready

lemma pair_wf : pair.Wf [3, 5] := by
  refine ⟨⟨⟨.node .black .nil 3 (.node .red .nil 5 .nil), ⟨rfl, ?_, by decide⟩, ?_, rfl⟩, rfl, ?_⟩,
    fun _ _ => rfl, fun a _ => ?_, by decide⟩
  · exact ⟨rfl, trivial, rfl, trivial, trivial⟩
  · exact ⟨rfl, by simp [Shape.NoRedRed], 1, by simp [Shape.BlackHeight]⟩
  · decide
  · by_cases h3 : a = 3
    · subst h3
      exact ⟨by decide, by decide, by decide, by decide⟩
    · by_cases h5 : a = 5
      · subst h5
        exact ⟨by decide, by decide, by decide, by decide⟩
      · have hent : pair.entity a = ⟨0, 1, 4⟩ := by simp [pair, h3, h5]
        rw [hent]
        exact ⟨by decide, by decide, by decide, by decide⟩

/-- A third thread wakes up: it joins with the virtual runtime 10 and makes the sum 10. -/
theorem enqueueRunqFromWaitq_rebuilds_pair : ∃ q',
    pair.enqueueRunqFromWaitq .debug 7 = .ok q' ∧ (q'.entity 7).vruntime = 10 ∧
      (q'.entity 3).schedTickCnt = 50 ∧ (q'.entity 5).schedTickCnt = 50 ∧
      (q'.entity 7).schedTickCnt = 25 := by
  have hfits : ∀ b ∈ [3, 5],
      (pair.entity b).Fits (satAdd32 pair.prioritySum (pair.entity 7).priority) := by decide
  obtain ⟨q', l', hrun, h⟩ :=
    (enqueueRunqFromWaitq_rebuilds .debug pair [3, 5] 7 pair_wf (by decide) rfl).1 (Or.inr hfits)
  have hsum : q'.prioritySum = 10 := h.prioritySum
  have h3 : (q'.entity 3).vruntime = 10 := h.vruntime 3 (by decide)
  have h5 : (q'.entity 5).vruntime = 20 := h.vruntime 5 (by decide)
  have h7 : (q'.entity 7).vruntime = 10 := h.joined
  have hp3 : (q'.entity 3).priority = 2 := h.priority 3
  have hp5 : (q'.entity 5).priority = 4 := h.priority 5
  have hp7 : (q'.entity 7).priority = 4 := h.priority 7
  have ht3 := h.ticks 3 (by decide)
  have ht5 := h.ticks 5 (by decide)
  have ht7 := h.ticks 7 (by decide)
  rw [SchedEntity.Fits, hsum, h3, hp3] at ht3
  rw [SchedEntity.Fits, hsum, h5, hp5] at ht5
  rw [SchedEntity.Fits, hsum, h7, hp7] at ht7
  exact ⟨q', hrun, h7, ht3 (by decide), ht5 (by decide), ht7 (by decide)⟩

end RunqMem

end Rtsched

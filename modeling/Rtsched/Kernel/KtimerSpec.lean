import Rtsched.Kernel.Ktimer

/-!
What the functions on the timers do.

* `KTimers.Wf`: both trees are ordered, the active flag of a linked timer names its tree, and the
  wait timer is never active.
* `KTimers.Frame K q q'`: besides the timers of `K`, a step changes only linked timers that are
  expired at its end, and it links and unlinks none.
* One lemma for each function; `KTimers.refreshNextKtimer_spec` gives **the first active timer as
  the chosen one**.
-/

namespace Rtsched

open Ordered Outcome

namespace KTimers

variable {q q' q'' : KTimers} {k j : Timer}

/-- The timer is in one of the trees. -/
def Linked (q : KTimers) (k : Timer) : Prop := k ∈ q.active ∨ k ∈ q.inactive

/-- The runtime counter that belongs to a timer. -/
def runtimeOf (q : KTimers) : Timer → ℕ
  | .rt t => q.runtime t
  | .cfs | .wait => 0

/-- The CFS timer: whether it is active, and when it expires. -/
def cfsView (q : KTimers) : Bool × ℕ := ((q.entity .cfs).active, (q.entity .cfs).expireAt)

/-- Both trees are ordered, the active flags name the trees, and the time is a `u64`. -/
structure Wf (q : KTimers) : Prop where
  active : Increasing q.cmp q.active
  inactive : Increasing q.cmp q.inactive
  flag_active : ∀ k ∈ q.active, (q.entity k).active = true
  flag_inactive : ∀ k ∈ q.inactive, (q.entity k).active = false
  wait_notMem : .wait ∉ q.active
  now_le : q.nowTicks ≤ u64Max

/-- Nothing about the timer has changed. -/
structure Same (q q' : KTimers) (k : Timer) : Prop where
  entity : q'.entity k = q.entity k
  runtime : q'.runtimeOf k = q.runtimeOf k
  active : k ∈ q'.active ↔ k ∈ q.active
  inactive : k ∈ q'.inactive ↔ k ∈ q.inactive

/-- The ticks that an active timer is given when it is re-armed. -/
def renewalTicks (q : KTimers) : Timer → ℕ
  | .cfs => (q.entity .cfs).periodTicks
  | k => (q.entity k).relativeDeadlineTicks

/-- The timer has expired and has been re-armed on the way.  The CFS timer was active then; the
timer of an RT thread may have been released. -/
structure Renewed (q q' : KTimers) (k : Timer) : Prop where
  expired : (q.entity k).expireAt ≤ q'.nowTicks
  cfs : k = .cfs → k ∈ q.active
  active : k ∈ q'.active
  runtime : q'.runtimeOf k = 0
  expireAt : ∃ n, q.nowTicks ≤ n ∧ n ≤ q'.nowTicks ∧
    (q'.entity k).expireAt = satAdd64 n (q.renewalTicks k)

/-- Besides the timers of `K`, only linked timers that are expired at the end have changed, and
none has been linked or unlinked; those that have changed have been re-armed. -/
structure Frame (K : Timer → Prop) (q q' : KTimers) : Prop where
  now_le : q.nowTicks ≤ q'.nowTicks
  timing : ∀ k, (q'.entity k).timing = (q.entity k).timing
  linked : ∀ k, ¬ K k → (q'.Linked k ↔ q.Linked k)
  same : ∀ k, ¬ K k → ¬ (q.Linked k ∧ (q.entity k).expireAt ≤ q'.nowTicks) → Same q q' k
  rearmed : ∀ k, ¬ K k → Same q q' k ∨ Renewed q q' k

namespace Same

lemma refl (q : KTimers) (k : Timer) : Same q q k := ⟨rfl, rfl, Iff.rfl, Iff.rfl⟩

lemma trans (h : Same q q' k) (h' : Same q' q'' k) : Same q q'' k where
  entity := h'.entity.trans h.entity
  runtime := h'.runtime.trans h.runtime
  active := h'.active.trans h.active
  inactive := h'.inactive.trans h.inactive

lemma linked (h : Same q q' k) : q'.Linked k ↔ q.Linked k := or_congr h.active h.inactive

lemma cfsView_eq (h : Same q q' .cfs) : q'.cfsView = q.cfsView := by rw [cfsView, h.entity, cfsView]

end Same

/-- The ticks of a new job depend on the timing of the timer only. -/
lemma renewalTicks_congr (h : (q'.entity k).timing = (q.entity k).timing) :
    q'.renewalTicks k = q.renewalTicks k := by
  cases k with
  | cfs => exact congrArg RtTiming.periodTicks h
  | wait | rt t => exact congrArg RtTiming.relativeDeadlineTicks h

namespace Renewed

lemma trans_same (h : Renewed q q' k) (h' : Same q' q'' k) (hnow : q'.nowTicks ≤ q''.nowTicks) :
    Renewed q q'' k where
  expired := h.expired.trans hnow
  cfs := h.cfs
  active := h'.active.mpr h.active
  runtime := h'.runtime.trans h.runtime
  expireAt := by
    obtain ⟨n, hle, hn, heq⟩ := h.expireAt
    exact ⟨n, hle, hn.trans hnow, by rw [h'.entity, heq]⟩

lemma of_same (h : Same q q' k) (h' : Renewed q' q'' k) (hnow : q.nowTicks ≤ q'.nowTicks) :
    Renewed q q'' k where
  expired := h.entity ▸ h'.expired
  cfs hk := h.active.mp (h'.cfs hk)
  active := h'.active
  runtime := h'.runtime
  expireAt := by
    obtain ⟨n, hle, hn, heq⟩ := h'.expireAt
    have hticks : q'.renewalTicks k = q.renewalTicks k := renewalTicks_congr (by rw [h.entity])
    exact ⟨n, hnow.trans hle, hn, by rw [heq, hticks]⟩

end Renewed

namespace Frame

variable {K K' : Timer → Prop}

/-- A step that leaves the other timers alone. -/
lemma of_same (hnow : q.nowTicks ≤ q'.nowTicks)
    (htiming : ∀ k, K k → (q'.entity k).timing = (q.entity k).timing)
    (h : ∀ k, ¬ K k → Same q q' k) : Frame K q q' where
  now_le := hnow
  timing k := by
    by_cases hk : K k
    · exact htiming k hk
    · rw [(h k hk).entity]
  linked k hk := (h k hk).linked
  same k hk _ := h k hk
  rearmed k hk := Or.inl (h k hk)

lemma refl (q : KTimers) : Frame K q q :=
  of_same le_rfl (fun _ _ => rfl) fun k _ => Same.refl q k

lemma mono (h : Frame K q q') (hK : ∀ k, K k → K' k) : Frame K' q q' where
  now_le := h.now_le
  timing := h.timing
  linked k hk := h.linked k fun h => hk (hK k h)
  same k hk := h.same k fun h => hk (hK k h)
  rearmed k hk := h.rearmed k fun h => hk (hK k h)

lemma trans (h : Frame K q q') (h' : Frame K q' q'') : Frame K q q'' where
  now_le := h.now_le.trans h'.now_le
  timing k := (h'.timing k).trans (h.timing k)
  linked k hk := (h'.linked k hk).trans (h.linked k hk)
  same k hk hcalm := by
    -- a timer that is not expired at the end is not expired in between
    have h₁ : Same q q' k := h.same k hk fun ⟨hl, he⟩ => hcalm ⟨hl, he.trans h'.now_le⟩
    have h₂ : Same q' q'' k := by
      refine h'.same k hk fun ⟨hl, he⟩ => hcalm ⟨h₁.linked.mp hl, ?_⟩
      rwa [h₁.entity] at he
    exact h₁.trans h₂
  rearmed k hk := by
    rcases h.rearmed k hk with h₁ | h₁
    · rcases h'.rearmed k hk with h₂ | h₂
      · exact Or.inl (h₁.trans h₂)
      · exact Or.inr (.of_same h₁ h₂ h.now_le)
    · rcases h'.rearmed k hk with h₂ | h₂
      · exact Or.inr (h₁.trans_same h₂ h'.now_le)
      · -- the timer has been re-armed twice
        obtain ⟨n, hle, hn, heq⟩ := h₂.expireAt
        refine Or.inr ⟨h₁.expired.trans h'.now_le, h₁.cfs, h₂.active, h₂.runtime, n,
          h.now_le.trans hle, hn, ?_⟩
        rw [heq, renewalTicks_congr (h.timing k)]

end Frame

/-- The wait timer is never active, so no new job of it starts. -/
lemma Frame.same_wait {K : Timer → Prop} (h : Frame K q q') (hq' : q'.Wf) (hK : ¬ K .wait) :
    Same q q' .wait :=
  (h.rearmed .wait hK).resolve_right fun hnew => hq'.wait_notMem hnew.active

/-! ### Editing an unlinked timer -/

/-- The order and the flags do not depend on a timer that is not linked. -/
lemma Wf.edit (hq : q.Wf) (hk : ¬ q.Linked k) (hlayout : q'.layout = q.layout)
    (hactive : q'.active = q.active) (hinactive : q'.inactive = q.inactive)
    (hentity : ∀ j ≠ k, q'.entity j = q.entity j) (hnow : q'.nowTicks ≤ u64Max) : q'.Wf := by
  have ha : ∀ j ∈ q.active, j ≠ k := by
    rintro j hj rfl
    exact hk (Or.inl hj)
  have hi : ∀ j ∈ q.inactive, j ≠ k := by
    rintro j hj rfl
    exact hk (Or.inr hj)
  have hcmp : ∀ i j, i ≠ k → j ≠ k → q'.cmp i j = q.cmp i j := by
    intro i j hik hjk
    simp only [KTimers.cmp, keyCmp, compareLex, compareOn, hentity i hik, hentity j hjk, hlayout]
  refine ⟨?_, ?_, ?_, ?_, ?_, hnow⟩
  · rw [hactive]
    exact hq.active.congr fun i hi' j hj => hcmp i j (ha i hi') (ha j hj)
  · rw [hinactive]
    exact hq.inactive.congr fun i hi' j hj => hcmp i j (hi i hi') (hi j hj)
  · intro j hj
    rw [hactive] at hj
    rw [hentity j (ha j hj)]
    exact hq.flag_active j hj
  · intro j hj
    rw [hinactive] at hj
    rw [hentity j (hi j hj)]
    exact hq.flag_inactive j hj
  · rw [hactive]
    exact hq.wait_notMem

/-- Only the data of the timer `k` has changed. -/
structure Edits (k : Timer) (q q' : KTimers) : Prop where
  layout : q'.layout = q.layout
  active : q'.active = q.active
  inactive : q'.inactive = q.inactive
  entity : ∀ j ≠ k, q'.entity j = q.entity j
  runtime : ∀ j ≠ k, q'.runtimeOf j = q.runtimeOf j
  timing : (q'.entity k).timing = (q.entity k).timing
  now_le : q.nowTicks ≤ q'.nowTicks
  now_max : q.nowTicks ≤ u64Max → q'.nowTicks ≤ u64Max

namespace Edits

lemma trans (h : Edits k q q') (h' : Edits k q' q'') : Edits k q q'' where
  layout := h'.layout.trans h.layout
  active := h'.active.trans h.active
  inactive := h'.inactive.trans h.inactive
  entity j hj := (h'.entity j hj).trans (h.entity j hj)
  runtime j hj := (h'.runtime j hj).trans (h.runtime j hj)
  timing := h'.timing.trans h.timing
  now_le := h.now_le.trans h'.now_le
  now_max hq := h'.now_max (h.now_max hq)

lemma linked (h : Edits k q q') : q'.Linked j ↔ q.Linked j := by
  rw [Linked, Linked, h.active, h.inactive]

lemma same (h : Edits k q q') (hj : j ≠ k) : Same q q' j where
  entity := h.entity j hj
  runtime := h.runtime j hj
  active := by rw [h.active]
  inactive := by rw [h.inactive]

lemma frame (h : Edits k q q') : Frame (· = k) q q' :=
  .of_same h.now_le (fun _ hj => hj ▸ h.timing) fun _ hj => h.same hj

lemma wf (h : Edits k q q') (hq : q.Wf) (hk : ¬ q.Linked k) : q'.Wf :=
  hq.edit hk h.layout h.active h.inactive h.entity (h.now_max hq.now_le)

end Edits

lemma edits_setEntity {e : KTimerEntity} (he : e.timing = (q.entity k).timing) :
    Edits k q (q.setEntity k e) where
  layout := rfl
  active := rfl
  inactive := rfl
  entity j hj := Function.update_of_ne hj ..
  runtime j _ := by cases j <;> rfl
  timing := by simpa [setEntity] using he
  now_le := le_rfl
  now_max := id

lemma edits_setRuntime {t : Tid} {n : ℕ} : Edits (.rt t) q (q.setRuntime t n) where
  layout := rfl
  active := rfl
  inactive := rfl
  entity _ _ := rfl
  runtime j hj := by
    cases j with
    | cfs | wait => rfl
    | rt u => exact Function.update_of_ne (fun h => hj (congrArg _ h)) ..
  timing := rfl
  now_le := le_rfl
  now_max := id

lemma edits_recordRtBudgetOverrun {t : Tid} : Edits (.rt t) q (q.recordRtBudgetOverrun t) := by
  unfold recordRtBudgetOverrun
  split
  · exact ⟨rfl, rfl, rfl, fun _ _ => rfl, fun j _ => by cases j <;> rfl, rfl, le_rfl, id⟩
  · exact ⟨rfl, rfl, rfl, fun _ _ => rfl, fun _ _ => rfl, rfl, le_rfl, id⟩

lemma edits_advanceTime {elapsed : ℕ} (h : q.nowTicks ≤ u64Max) :
    Edits k q (q.advanceTime elapsed) where
  layout := rfl
  active := rfl
  inactive := rfl
  entity _ _ := rfl
  runtime j _ := by cases j <;> rfl
  timing := rfl
  now_le := le_min (Nat.le_add_right _ _) h
  now_max _ := min_le_right _ _

lemma edits_rearmRt {t : Tid} : Edits (.rt t) q (q.rearmRt t) :=
  edits_setRuntime.trans (edits_setEntity rfl)

/-! ### Linking and unlinking -/

/-- The order of the timers is that of their expirations first. -/
lemma expireAt_le_of_lt (h : q.cmp k j = .lt) :
    (q.entity k).expireAt ≤ (q.entity j).expireAt := by
  rw [cmp, keyCmp_eq_lt] at h
  rcases h with hlt | ⟨heq, -⟩
  · exact (Nat.compare_eq_lt.mp hlt).le
  · exact (Nat.compare_eq_eq.mp heq).le

lemma head_expireAt_le {l : List Timer} (h : Increasing q.cmp l) (hk : l.head? = some k)
    (hj : j ∈ l) : (q.entity k).expireAt ≤ (q.entity j).expireAt := by
  by_cases hjk : j = k
  · rw [hjk]
  · exact expireAt_le_of_lt (h.head_lt hk hj hjk)

namespace Wf

lemma notMem_inactive (h : q.Wf) (hk : k ∈ q.active) : k ∉ q.inactive := fun hi => by
  have ha := h.flag_active k hk
  rw [h.flag_inactive k hi] at ha
  exact absurd ha (by decide)

/-- A linked timer is in the tree its flag names. -/
lemma mem_active_iff (h : q.Wf) (hk : q.Linked k) :
    k ∈ q.active ↔ (q.entity k).active = true := by
  constructor
  · exact h.flag_active k
  · intro ha
    rcases hk with hk | hk
    · exact hk
    · rw [h.flag_inactive k hk] at ha
      exact absurd ha (by decide)

lemma mem_inactive_iff (h : q.Wf) (hk : q.Linked k) :
    k ∈ q.inactive ↔ (q.entity k).active = false := by
  constructor
  · exact h.flag_inactive k
  · intro ha
    refine hk.resolve_left fun hact => ?_
    rw [h.flag_active k hact] at ha
    exact absurd ha (by decide)

end Wf

/-- A linked timer with the same fields is in the same tree. -/
lemma Same.of_fields (hq : q.Wf) (hq' : q'.Wf) (hk : q.Linked k) (hk' : q'.Linked k)
    (hexp : (q'.entity k).expireAt = (q.entity k).expireAt)
    (hflag : (q'.entity k).active = (q.entity k).active)
    (htiming : (q'.entity k).timing = (q.entity k).timing)
    (hrun : q'.runtimeOf k = q.runtimeOf k) : Same q q' k where
  entity := by
    have hfields : ∀ e : KTimerEntity, e = ⟨e.expireAt, e.active, e.timing⟩ := fun _ => rfl
    rw [hfields (q'.entity k), hexp, hflag, htiming]
  runtime := hrun
  active := by rw [hq.mem_active_iff hk, hq'.mem_active_iff hk', hflag]
  inactive := by rw [hq.mem_inactive_iff hk, hq'.mem_inactive_iff hk', hflag]

/-- No timer of the queue is expired. -/
def Calm (q : KTimers) : Prop := ∀ k, q.Linked k → q.nowTicks < (q.entity k).expireAt

lemma exists_first (hj : q.Linked j) : ∃ k, q.first = some k := by
  rw [first]
  cases ha : q.active.head? with
  | none =>
      cases hi : q.inactive.head? with
      | none =>
          rw [List.head?_eq_none_iff] at ha hi
          simp [Linked, ha, hi] at hj
      | some b => exact ⟨b, rfl⟩
  | some a =>
      cases q.inactive.head? with
      | none => exact ⟨a, rfl⟩
      | some b =>
          simp only
          split
          · exact ⟨a, rfl⟩
          · exact ⟨b, rfl⟩

/-- The first timer of both trees is the least one. -/
lemma Wf.first_le (h : q.Wf) (hk : q.first = some k) (hj : q.Linked j) :
    (q.entity k).expireAt ≤ (q.entity j).expireAt := by
  rw [first] at hk
  cases ha : q.active.head? with
  | none =>
      have hnil : q.active = [] := List.head?_eq_none_iff.mp ha
      have hb : q.inactive.head? = some k := by simpa [ha] using hk
      exact head_expireAt_le h.inactive hb (hj.resolve_left (by simp [hnil]))
  | some a =>
      cases hb : q.inactive.head? with
      | none =>
          have hnil : q.inactive = [] := List.head?_eq_none_iff.mp hb
          obtain rfl : a = k := by simpa [ha, hb] using hk
          exact head_expireAt_le h.active ha (hj.resolve_right (by simp [hnil]))
      | some b =>
          by_cases hab : q.cmp a b = .lt
          · obtain rfl : a = k := by simpa [ha, hb, hab] using hk
            rcases hj with hj | hj
            · exact head_expireAt_le h.active ha hj
            · exact (expireAt_le_of_lt hab).trans (head_expireAt_le h.inactive hb hj)
          · obtain rfl : b = k := by simpa [ha, hb, hab] using hk
            rcases hj with hj | hj
            · refine le_trans ?_ (head_expireAt_le h.active ha hj)
              by_cases heq : a = b
              · rw [heq]
              · exact expireAt_le_of_lt ((cmp_lt_or_gt heq).resolve_left hab)
            · exact head_expireAt_le h.inactive hb hj

/-- No timer is expired if the first one is not. -/
lemma calm_of_first (h : q.Wf) (hfirst : ∀ k, q.first = some k → ¬ q.expired k = true) :
    q.Calm := by
  intro j hj
  obtain ⟨k, hk⟩ := exists_first hj
  have hlate : q.nowTicks < (q.entity k).expireAt := by
    simpa [expired, KTimerEntity.isExpiredAt] using hfirst k hk
  exact hlate.trans_le (h.first_le hk hj)

/-- The timer `k` has been linked, to the active tree if `a`. -/
structure Links (k : Timer) (a : Bool) (q q' : KTimers) : Prop where
  wf : q'.Wf
  active : ∀ j, j ∈ q'.active ↔ j ∈ q.active ∨ (j = k ∧ a = true)
  inactive : ∀ j, j ∈ q'.inactive ↔ j ∈ q.inactive ∨ (j = k ∧ a = false)
  entity : q'.entity = Function.update q.entity k { q.entity k with active := a }
  nowTicks : q'.nowTicks = q.nowTicks
  runtime : q'.runtime = q.runtime
  next : q'.next = q.next

namespace Links

variable {a : Bool}

lemma linked_self (h : Links k a q q') : q'.Linked k := by
  cases a with
  | true => exact Or.inl ((h.active k).mpr (Or.inr ⟨rfl, rfl⟩))
  | false => exact Or.inr ((h.inactive k).mpr (Or.inr ⟨rfl, rfl⟩))

lemma same (h : Links k a q q') (hj : j ≠ k) : Same q q' j where
  entity := by rw [h.entity, Function.update_of_ne hj]
  runtime := by cases j <;> simp [runtimeOf, h.runtime]
  active := by simp [h.active, hj]
  inactive := by simp [h.inactive, hj]

lemma entity_self (h : Links k a q q') : q'.entity k = { q.entity k with active := a } := by
  rw [h.entity, Function.update_self]

lemma runtimeOf_eq (h : Links k a q q') : q'.runtimeOf j = q.runtimeOf j := by
  cases j <;> simp [runtimeOf, h.runtime]

lemma frame (h : Links k a q q') : Frame (· = k) q q' :=
  .of_same h.nowTicks.ge (fun j hj => by rw [hj, h.entity_self]) fun j hj => h.same hj

end Links

lemma contains_eq_false (hk : ¬ q.Linked k) : q.contains k = false := by
  simpa [contains, Linked] using hk

/-- The timer `k` has been put into one of the trees and its flag has been set. -/
lemma links_of_lists (hq : q.Wf) (hk : ¬ q.Linked k) {a : Bool} (hw : k = .wait → a = false)
    {l l' : List Timer} (hl : Increasing q.cmp l) (hl' : Increasing q.cmp l')
    (hmem : ∀ j, j ∈ l ↔ j ∈ q.active ∨ (j = k ∧ a = true))
    (hmem' : ∀ j, j ∈ l' ↔ j ∈ q.inactive ∨ (j = k ∧ a = false)) :
    Links k a q
      (setEntity { q with active := l, inactive := l' } k { q.entity k with active := a }) := by
  have hself : Function.update q.entity k { q.entity k with active := a } k =
      { q.entity k with active := a } := Function.update_self ..
  have hne : ∀ j, q.Linked j →
      Function.update q.entity k { q.entity k with active := a } j = q.entity j := by
    intro j hj
    refine Function.update_of_ne ?_ ..
    rintro rfl
    exact hk hj
  -- the flag is not part of the order
  have hcmp : cmp (setEntity { q with active := l, inactive := l' } k
      { q.entity k with active := a }) = q.cmp := by
    have hkey : (fun j => (Function.update q.entity k { q.entity k with active := a } j).expireAt) =
        fun j => (q.entity j).expireAt := by
      funext j
      by_cases hj : j = k
      · rw [hj, hself]
      · rw [Function.update_of_ne hj]
    simp only [cmp, setEntity, hkey]
  refine ⟨⟨?_, ?_, ?_, ?_, ?_, hq.now_le⟩, hmem, hmem', rfl, rfl, rfl, rfl⟩
  · rw [hcmp]
    exact hl
  · rw [hcmp]
    exact hl'
  · intro j hj
    rcases (hmem j).mp hj with hj | ⟨rfl, ha⟩
    · exact (congrArg KTimerEntity.active (hne j (Or.inl hj))).trans (hq.flag_active j hj)
    · exact (congrArg KTimerEntity.active hself).trans ha
  · intro j hj
    rcases (hmem' j).mp hj with hj | ⟨rfl, ha⟩
    · exact (congrArg KTimerEntity.active (hne j (Or.inr hj))).trans (hq.flag_inactive j hj)
    · exact (congrArg KTimerEntity.active hself).trans ha
  · intro hj
    rcases (hmem .wait).mp hj with hj | ⟨hwk, ha⟩
    · exact hq.wait_notMem hj
    · rw [hw hwk.symm] at ha
      exact absurd ha (by decide)

/-- **Specification of `insert`.** -/
theorem insert_spec (hq : q.Wf) (hk : ¬ q.Linked k) {a : Bool} (hw : k = .wait → a = false) :
    ∃ q', q.insert k a = .ok q' ∧ Links k a q q' := by
  have hka : k ∉ q.active := fun h => hk (Or.inl h)
  have hki : k ∉ q.inactive := fun h => hk (Or.inr h)
  rw [insert, contains_eq_false hk, if_neg (by decide)]
  cases a with
  | true =>
      refine ⟨_, by rw [if_pos rfl, link_of_notMem hka]; rfl,
        links_of_lists hq hk hw (hq.active.ordInsert hka) hq.inactive ?_ ?_⟩
      · intro j
        simp [or_comm]
      · intro j
        simp
  | false =>
      refine ⟨_, by rw [if_neg (by decide), link_of_notMem hki]; rfl,
        links_of_lists hq hk hw hq.active (hq.inactive.ordInsert hki) ?_ ?_⟩
      · intro j
        simp
      · intro j
        simp [or_comm]

/-- The timer `k` has been unlinked. -/
structure Unlinks (k : Timer) (q q' : KTimers) : Prop where
  wf : q'.Wf
  active : ∀ j, j ∈ q'.active ↔ j ∈ q.active ∧ j ≠ k
  inactive : ∀ j, j ∈ q'.inactive ↔ j ∈ q.inactive ∧ j ≠ k
  entity : q'.entity = q.entity
  nowTicks : q'.nowTicks = q.nowTicks
  runtime : q'.runtime = q.runtime
  next : q'.next = q.next

namespace Unlinks

lemma not_linked (h : Unlinks k q q') : ¬ q'.Linked k := by
  rintro (hk | hk)
  · exact ((h.active k).mp hk).2 rfl
  · exact ((h.inactive k).mp hk).2 rfl

lemma same (h : Unlinks k q q') (hj : j ≠ k) : Same q q' j where
  entity := by rw [h.entity]
  runtime := by cases j <;> simp [runtimeOf, h.runtime]
  active := by simp [h.active, hj]
  inactive := by simp [h.inactive, hj]

lemma runtimeOf_eq (h : Unlinks k q q') : q'.runtimeOf j = q.runtimeOf j := by
  cases j <;> simp [runtimeOf, h.runtime]

lemma frame (h : Unlinks k q q') : Frame (· = k) q q' :=
  .of_same h.nowTicks.ge (fun j _ => by rw [h.entity]) fun j hj => h.same hj

end Unlinks

/-- **Specification of `remove`.** -/
theorem remove_spec (hq : q.Wf) (hk : q.Linked k) :
    ∃ q', q.remove k = .ok q' ∧ Unlinks k q q' := by
  rw [remove]
  by_cases hka : (q.entity k).active = true
  · have hmem := (hq.mem_active_iff hk).mpr hka
    have hnot := hq.notMem_inactive hmem
    refine ⟨_, by rw [if_pos hka, unlink_of_mem hmem]; rfl, ?_⟩
    refine ⟨⟨hq.active.erase k, hq.inactive, ?_, hq.flag_inactive, ?_, hq.now_le⟩, ?_, ?_, rfl,
      rfl, rfl, rfl⟩
    · exact fun j hj => hq.flag_active j (List.mem_of_mem_erase hj)
    · exact fun hj => hq.wait_notMem (List.mem_of_mem_erase hj)
    · intro j
      rw [hq.active.nodup.mem_erase_iff, and_comm]
    · intro j
      refine ⟨fun hj => ⟨hj, ?_⟩, fun hj => hj.1⟩
      rintro rfl
      exact hnot hj
  · have hnot : k ∉ q.active := fun h => hka (hq.flag_active k h)
    have hmem : k ∈ q.inactive := hk.resolve_left hnot
    refine ⟨_, by rw [if_neg hka, unlink_of_mem hmem]; rfl, ?_⟩
    refine ⟨⟨hq.active, hq.inactive.erase k, hq.flag_active, ?_, hq.wait_notMem, hq.now_le⟩, ?_,
      ?_, rfl, rfl, rfl, rfl⟩
    · exact fun j hj => hq.flag_inactive j (List.mem_of_mem_erase hj)
    · intro j
      refine ⟨fun hj => ⟨hj, ?_⟩, fun hj => hj.1⟩
      rintro rfl
      exact hnot hj
    · intro j
      rw [hq.inactive.nodup.mem_erase_iff, and_comm]

/-- Take a timer out, change its data and put it back. -/
lemma relink_spec (hq : q.Wf) (hk : q.Linked k) {a : Bool} (hw : k = .wait → a = false) :
    ∃ q₁, q.remove k = .ok q₁ ∧ Unlinks k q q₁ ∧ ∀ q₂, Edits k q₁ q₂ →
      ∃ q₃, q₂.insert k a = .ok q₃ ∧ Links k a q₂ q₃ ∧ Frame (· = k) q q₃ := by
  obtain ⟨q₁, hrem, h₁⟩ := remove_spec hq hk
  refine ⟨q₁, hrem, h₁, fun q₂ h₂ => ?_⟩
  have hnot : ¬ q₂.Linked k := fun h => h₁.not_linked (h₂.linked.mp h)
  obtain ⟨q₃, hins, h₃⟩ := insert_spec (h₂.wf h₁.wf h₁.not_linked) hnot hw
  exact ⟨q₃, hins, h₃, h₁.frame.trans (h₂.frame.trans h₃.frame)⟩

/-! ### Choosing the next timer -/

lemma wf_next (h : q.Wf) (k : Option Timer) : Wf { q with next := k } :=
  ⟨h.active, h.inactive, h.flag_active, h.flag_inactive, h.wait_notMem, h.now_le⟩

lemma same_next (q : KTimers) (n : Option Timer) (k : Timer) : Same q { q with next := n } k :=
  ⟨rfl, by cases k <;> rfl, Iff.rfl, Iff.rfl⟩

lemma frame_next (q : KTimers) (k : Option Timer) {K : Timer → Prop} :
    Frame K q { q with next := k } :=
  .of_same le_rfl (fun _ _ => rfl) fun j _ => same_next q k j

/-- A timer that is re-armed need not be named by the frame. -/
lemma Frame.drop (h : Frame (· = k) q q') (hk : q.Linked k) (hnew : Renewed q q' k)
    {K : Timer → Prop} : Frame K q q' where
  now_le := h.now_le
  timing := h.timing
  linked j _ := by
    by_cases hj : j = k
    · subst hj
      exact iff_of_true (Or.inl hnew.active) hk
    · exact h.linked j hj
  same j _ hcalm := by
    refine h.same j ?_ hcalm
    rintro rfl
    exact hcalm ⟨hk, hnew.expired⟩
  rearmed j _ := by
    by_cases hj : j = k
    · subst hj
      exact Or.inr hnew
    · exact h.rearmed j hj

/-- A step at a fixed time that ends with the first active timer chosen. -/
structure Settles (K : Timer → Prop) (q q' : KTimers) : Prop where
  wf : q'.Wf
  frame : Frame K q q'
  nowTicks : q'.nowTicks = q.nowTicks
  next : q'.next = q'.active.head?

lemma Settles.of_frame {K : Timer → Prop} (h : Settles K q' q'') (hf : Frame K q q')
    (hn : q'.nowTicks = q.nowTicks) : Settles K q q'' :=
  ⟨h.wf, hf.trans h.frame, h.nowTicks.trans hn, h.next⟩

lemma Settles.mono {K K' : Timer → Prop} (h : Settles K q q') (hK : ∀ k, K k → K' k) :
    Settles K' q q' :=
  ⟨h.wf, h.frame.mono hK, h.nowTicks, h.next⟩

lemma runtimeOf_rearmRt (q : KTimers) (t : Tid) : (q.rearmRt t).runtimeOf (.rt t) = 0 :=
  Function.update_self ..

lemma expireAt_rearmRt (q : KTimers) (t : Tid) : ((q.rearmRt t).entity (.rt t)).expireAt =
    satAdd64 q.nowTicks (q.renewalTicks (.rt t)) := by
  simp [rearmRt, setEntity, setRuntime, renewalTicks, KTimerEntity.setExpireAfter]

/-- The new job of an expired active timer changes that timer only. -/
lemma rearmActive_spec (hk : k ≠ .wait) :
    Ends Fault.Benign (q.rearmActive k) fun q' =>
      Edits k q q' ∧ q'.nowTicks = q.nowTicks ∧ q'.runtimeOf k = 0 ∧
        (q'.entity k).expireAt = satAdd64 q.nowTicks (q.renewalTicks k) := by
  cases k with
  | cfs =>
      refine ⟨edits_setEntity rfl, rfl, rfl, ?_⟩
      simp [setEntity, renewalTicks, KTimerEntity.setExpireAfter]
  | wait => exact absurd rfl hk
  | rt t =>
      rw [rearmActive]
      split
      · exact Or.inl rfl
      · exact ⟨edits_rearmRt, rfl, runtimeOf_rearmRt q t, expireAt_rearmRt q t⟩

/-- **Specification of `refresh_next_ktimer`:** the first active timer is chosen. -/
theorem refreshNextKtimer_spec (hq : q.Wf) (K : Timer → Prop) :
    Ends Fault.Benign q.refreshNextKtimer (Settles K q) := by
  rw [refreshNextKtimer, firstActive]
  cases hhead : q.active.head? with
  | none => exact ⟨wf_next hq _, frame_next q _, rfl, hhead.symm⟩
  | some k =>
      have hmem : k ∈ q.active := List.mem_of_mem_head? hhead
      have hwait : k ≠ .wait := fun h => hq.wait_notMem (h ▸ hmem)
      by_cases hexp : q.expired k = true
      · obtain ⟨q₁, hrem, h₁, hins⟩ := relink_spec hq (Or.inl hmem) (a := true)
          fun h => absurd h hwait
        simp only [hexp, if_true, hrem, ok_bind]
        refine (rearmActive_spec hwait).bind fun q₂ ⟨h₂, hnow₂, hrun₂, hexp₂⟩ => ?_
        obtain ⟨q₃, hins₃, h₃, hframe⟩ := hins q₂ h₂
        have hnow : q₃.nowTicks = q.nowTicks := h₃.nowTicks.trans (hnow₂.trans h₁.nowTicks)
        have hle : (q.entity k).expireAt ≤ q₃.nowTicks := by
          rw [hnow]
          simpa [expired, KTimerEntity.isExpiredAt] using hexp
        rw [enqueueActive, hins₃, ok_bind]
        have hticks : q₁.renewalTicks k = q.renewalTicks k := renewalTicks_congr (by rw [h₁.entity])
        have hnew : Renewed q q₃ k := by
          refine ⟨hle, fun _ => hmem, (h₃.active k).mpr (Or.inr ⟨rfl, rfl⟩),
            h₃.runtimeOf_eq.trans hrun₂, q.nowTicks, le_rfl, hnow.ge, ?_⟩
          rw [h₃.entity_self, ← hticks, ← h₁.nowTicks, ← hexp₂]
        exact ⟨wf_next h₃.wf _, (hframe.drop (Or.inl hmem) hnew).trans (frame_next q₃ _), hnow, rfl⟩
      · simp only [hexp]
        exact ⟨wf_next hq _, frame_next q _, rfl, hhead.symm⟩

/-! ### The other functions -/

/-- `dequeue` unlinks the timer and clears its flag. -/
lemma dequeue_spec (hq : q.Wf) (hk : q.Linked k) :
    ∃ q', q.dequeue k = .ok q' ∧ q'.Wf ∧ Frame (· = k) q q' ∧ ¬ q'.Linked k ∧
      q'.entity k = { q.entity k with active := false } ∧ q'.runtimeOf k = q.runtimeOf k ∧
      q'.nowTicks = q.nowTicks ∧ q'.next = q.next := by
  obtain ⟨q₁, hrem, h₁⟩ := remove_spec hq hk
  have h₂ : Edits k q₁ (q₁.setEntity k { q₁.entity k with active := false }) :=
    edits_setEntity rfl
  refine ⟨q₁.setEntity k { q₁.entity k with active := false }, ?_, h₂.wf h₁.wf h₁.not_linked,
    h₁.frame.trans h₂.frame, fun h => h₁.not_linked (h₂.linked.mp h), ?_, ?_, h₁.nowTicks,
    h₁.next⟩
  · rw [dequeue, hrem, ok_bind]
  · simp [setEntity, h₁.entity]
  · rw [← h₁.runtimeOf_eq]
    cases k <;> rfl

/-- **Specification of `remove_ktimer`.** -/
theorem removeKtimer_spec (hq : q.Wf) (hk : q.Linked k) :
    Ends Fault.Benign (q.removeKtimer k) fun q' =>
      q'.Wf ∧ Frame (· = k) q q' ∧ ¬ q'.Linked k ∧
        q'.entity k = { q.entity k with active := false } ∧ q'.runtimeOf k = q.runtimeOf k ∧
        q'.nowTicks = q.nowTicks := by
  obtain ⟨q₁, hdeq, hwf, hframe, hnot, hent, hrun, hnow, -⟩ := dequeue_spec hq hk
  rw [removeKtimer, hdeq, ok_bind]
  split
  · refine (refreshNextKtimer_spec hwf fun _ => False).imp fun q₂ h₂ => ?_
    have hsame : Same q₁ q₂ k := h₂.frame.same k id fun h => hnot h.1
    refine ⟨h₂.wf, hframe.trans (h₂.frame.mono fun _ h => h.elim), fun h => hnot ?_,
      hsame.entity.trans hent, hsame.runtime.trans hrun, h₂.nowTicks.trans hnow⟩
    exact hsame.linked.mp h
  · exact ⟨hwf, hframe, hnot, hent, hrun, hnow⟩

/-- **Specification of `enqueue_ktimer`.** -/
theorem enqueueKtimer_spec (hq : q.Wf) (hk : ¬ q.Linked k) (hw : k ≠ .wait) :
    Ends Fault.Benign (q.enqueueKtimer k) fun q' =>
      Settles (· = k) q q' ∧ k ∈ q'.active ∧ (¬ q.expired k = true →
        q'.entity k = { q.entity k with active := true } ∧
          q'.runtimeOf k = q.runtimeOf k) := by
  obtain ⟨q₁, hins, h₁⟩ := insert_spec hq hk (a := true) fun h => absurd h hw
  rw [enqueueKtimer, enqueueActive, hins, ok_bind]
  refine (refreshNextKtimer_spec h₁.wf fun _ => False).imp fun q₂ h₂ => ?_
  have hact : k ∈ q₂.active := by
    rcases h₂.frame.rearmed k id with hsame | hnew
    · exact hsame.active.mpr ((h₁.active k).mpr (Or.inr ⟨rfl, rfl⟩))
    · exact hnew.active
  refine ⟨(h₂.mono fun _ h => h.elim).of_frame h₁.frame h₁.nowTicks, hact, fun hexp => ?_⟩
  have hsame : Same q₁ q₂ k := by
    refine h₂.frame.same k id fun h => hexp ?_
    have hle := h.2
    rw [h₁.entity_self, h₂.nowTicks, h₁.nowTicks] at hle
    simpa [expired, KTimerEntity.isExpiredAt] using hle
  exact ⟨hsame.entity.trans h₁.entity_self, hsame.runtime.trans h₁.runtimeOf_eq⟩

/-- **Specification of `program_wait_ktimer`.** -/
theorem programWaitKtimer_spec (hq : q.Wf) (hk : q.Linked .wait) (firstWait : Option ℕ) :
    Ends Fault.Benign (q.programWaitKtimer firstWait) fun q' =>
      Settles (· = .wait) q q' ∧ q'.Linked .wait ∧
        (q'.entity .wait).expireAt = waitExpireAt firstWait := by
  rw [programWaitKtimer]
  split
  · obtain ⟨q₁, hrem, h₁, hins⟩ := relink_spec hq hk (a := false) fun _ => rfl
    obtain ⟨q₃, hins₃, h₃, hframe⟩ :=
      hins _ (edits_setEntity (e := (q₁.entity .wait).setExpireAt (waitExpireAt firstWait)) rfl)
    have hnow : q₃.nowTicks = q.nowTicks := h₃.nowTicks.trans h₁.nowTicks
    rw [hrem, ok_bind, enqueueInactive, hins₃, ok_bind]
    refine (refreshNextKtimer_spec h₃.wf fun _ => False).imp fun q₄ h₄ => ?_
    refine ⟨(h₄.mono fun _ h => h.elim).of_frame hframe hnow,
      (h₄.frame.linked _ id).mpr h₃.linked_self, ?_⟩
    rw [(h₄.frame.same_wait h₄.wf id).entity, h₃.entity_self]
    simp [setEntity, KTimerEntity.setExpireAt]
  · rename_i hexp
    rw [ok_bind]
    refine (refreshNextKtimer_spec hq fun _ => False).imp fun q₄ h₄ => ?_
    refine ⟨h₄.mono fun _ h => h.elim, (h₄.frame.linked _ id).mpr hk, ?_⟩
    rw [(h₄.frame.same_wait h₄.wf id).entity]
    exact not_not.mp hexp

/-- The expiration that the CFS timer has when it is parked `elapsed` ticks after the queue's
time. -/
def parkedExpireAt (q : KTimers) (elapsed : ℕ) : ℕ :=
  satAdd64 (satAdd64 q.nowTicks elapsed) ((q.entity .cfs).periodTicks - elapsed)

/-- The expiration that the timer of an RT thread has after it yields. -/
def yieldedExpireAt (q : KTimers) (t : Tid) (elapsed : ℕ) : ℕ :=
  satAdd64 (satAdd64 q.nowTicks elapsed)
    ((q.entity (.rt t)).periodTicks - satAdd32 (q.runtime t) elapsed)

@[simp] lemma recordRtBudgetOverrun_entity {t : Tid} :
    (q.recordRtBudgetOverrun t).entity = q.entity := by
  unfold recordRtBudgetOverrun
  split <;> rfl

@[simp] lemma recordRtBudgetOverrun_runtime {t : Tid} :
    (q.recordRtBudgetOverrun t).runtime = q.runtime := by
  unfold recordRtBudgetOverrun
  split <;> rfl

@[simp] lemma recordRtBudgetOverrun_nowTicks {t : Tid} :
    (q.recordRtBudgetOverrun t).nowTicks = q.nowTicks := by
  unfold recordRtBudgetOverrun
  split <;> rfl

@[simp] lemma recordRtBudgetOverrun_next {t : Tid} :
    (q.recordRtBudgetOverrun t).next = q.next := by
  unfold recordRtBudgetOverrun
  split <;> rfl

/-- The charge changes the yielding timer only. -/
lemma yieldCharge_spec (hk : k ≠ .wait) (elapsed : ℕ) (reset : Bool) :
    ∃ q', q.yieldCharge k elapsed reset = .ok q' ∧ Edits k q q' ∧ q'.nowTicks = q.nowTicks ∧
      q'.next = q.next ∧ (k = .cfs → (q'.entity .cfs).expireAt = q.parkedExpireAt elapsed) ∧
      ∀ t, k = .rt t → (q'.entity (.rt t)).expireAt = q.yieldedExpireAt t elapsed ∧
          q'.runtime t = if reset then 0 else satAdd32 (q.runtime t) elapsed := by
  cases k with
  | cfs =>
      refine ⟨_, rfl, edits_setEntity rfl, rfl, rfl, fun _ => ?_, fun t h => by cases h⟩
      simp [setEntity, parkedExpireAt, KTimerEntity.setExpireAfter]
  | wait => exact absurd rfl hk
  | rt t =>
      refine ⟨_, rfl, ?_, ?_, ?_, (by simp), ?_⟩
      · have hcharged : Edits (.rt t) q
            ((q.setRuntime t (satAdd32 (q.runtime t) elapsed)).recordRtBudgetOverrun t) :=
          edits_setRuntime.trans edits_recordRtBudgetOverrun
        cases reset with
        | true =>
            refine Edits.trans ?_ edits_setRuntime
            exact hcharged.trans (edits_setEntity rfl)
        | false => exact hcharged.trans (edits_setEntity rfl)
      · cases reset <;> simp [setRuntime, setEntity]
      · cases reset <;> simp [setRuntime, setEntity]
      · intro u hu
        obtain rfl : t = u := by simpa using hu
        cases reset <;>
          simp [setRuntime, setEntity, yieldedExpireAt, KTimerEntity.setExpireAfter]

/-- **Specification of `yield_ktimer`.** -/
theorem yieldKtimer_spec (hq : q.Wf) (hk : q.Linked k) (hw : k ≠ .wait) (elapsed : ℕ)
    (reset : Bool) :
    ∃ q', q.yieldKtimer k elapsed reset = .ok q' ∧ q'.Wf ∧ Frame (· = k) q q' ∧
      k ∈ q'.inactive ∧ q'.nowTicks = satAdd64 q.nowTicks elapsed ∧
      (k = .cfs → (q'.entity .cfs).expireAt = q.parkedExpireAt elapsed) ∧
      ∀ t, k = .rt t → (q'.entity (.rt t)).expireAt = q.yieldedExpireAt t elapsed ∧
          q'.runtime t = if reset then 0 else satAdd32 (q.runtime t) elapsed := by
  obtain ⟨q₁, hrem, h₁, hins⟩ := relink_spec hq hk (a := false) fun h => absurd h hw
  obtain ⟨q₂, hcharge, h₂, hnow₂, -, hcfs, hval⟩ := yieldCharge_spec (q := q₁) hw elapsed reset
  have hmax : q₂.nowTicks ≤ u64Max := h₂.now_max h₁.wf.now_le
  obtain ⟨q₃, hins₃, h₃, hframe⟩ := hins _ (h₂.trans (edits_advanceTime hmax))
  refine ⟨q₃, ?_, h₃.wf, hframe, (h₃.inactive k).mpr (Or.inr ⟨rfl, rfl⟩), ?_, ?_, ?_⟩
  · rw [yieldKtimer, hrem, ok_bind, hcharge, ok_bind, enqueueInactive, hins₃]
  · rw [h₃.nowTicks, advanceTime, hnow₂, h₁.nowTicks]
  · rintro rfl
    have hsame : q₁.parkedExpireAt elapsed = q.parkedExpireAt elapsed := by
      simp only [parkedExpireAt, h₁.entity, h₁.nowTicks]
    rw [h₃.entity_self, ← hsame, ← hcfs rfl]
    rfl
  · rintro t rfl
    obtain ⟨hexp, hrun⟩ := hval t rfl
    have hsame : q₁.yieldedExpireAt t elapsed = q.yieldedExpireAt t elapsed := by
      simp only [yieldedExpireAt, h₁.entity, h₁.nowTicks, h₁.runtime]
    refine ⟨?_, ?_⟩
    · rw [h₃.entity_self, ← hsame, ← hexp]
      rfl
    · rw [h₃.runtime, ← h₁.runtime, ← hrun]
      rfl

/-- **Specification of `set_thread_scheduler_expire_at`.** -/
theorem setSchedulerExpireAt_spec (hq : q.Wf) (hw : k ≠ .wait) (expireAt : ℕ) :
    Ends Fault.Benign (q.setSchedulerExpireAt k expireAt) fun q' =>
      q'.Wf ∧ Frame (· = k) q q' ∧ (q'.Linked k ↔ q.Linked k) ∧ q'.nowTicks = q.nowTicks ∧
        (q.next = q.active.head? → q'.next = q'.active.head?) ∧
        (q.nowTicks < expireAt → (q'.entity k).expireAt = expireAt) := by
  -- the timer keeps its new expiration unless it is expired at once
  have hkept : ∀ q₁ q₂, (q₁.entity k).expireAt = expireAt → q₁.nowTicks = q.nowTicks →
      Settles (fun _ => False) q₁ q₂ → q.nowTicks < expireAt →
      (q₂.entity k).expireAt = expireAt := by
    intro q₁ q₂ hexp hnow hs hlt
    have hsame : Same q₁ q₂ k := by
      refine hs.frame.same k id fun hl => ?_
      have hle := hl.2
      rw [hexp, hs.nowTicks, hnow] at hle
      omega
    rw [hsame.entity, hexp]
  rw [setSchedulerExpireAt]
  by_cases hk : q.Linked k
  · have hcontains : q.contains k = true := by simpa [contains, Linked] using hk
    obtain ⟨q₁, hrem, h₁, hins⟩ := relink_spec hq hk (a := (q.entity k).active)
      fun h => absurd h hw
    obtain ⟨q₃, hins₃, h₃, hframe⟩ :=
      hins _ (edits_setEntity (e := (q₁.entity k).setExpireAt expireAt) rfl)
    simp only [hcontains, if_true, hrem, ok_bind, hins₃]
    refine (refreshNextKtimer_spec h₃.wf fun _ => False).imp fun q₄ h₄ => ?_
    have hs : Settles (· = k) q q₄ :=
      (h₄.mono fun _ h => h.elim).of_frame hframe (h₃.nowTicks.trans h₁.nowTicks)
    refine ⟨hs.wf, hs.frame, iff_of_true ((h₄.frame.linked k id).mpr h₃.linked_self) hk,
      hs.nowTicks, fun _ => hs.next, hkept q₃ q₄ ?_ (h₃.nowTicks.trans h₁.nowTicks) h₄⟩
    rw [h₃.entity_self]
    simp [setEntity, KTimerEntity.setExpireAt]
  · have h₂ : Edits k q (q.setEntity k ((q.entity k).setExpireAt expireAt)) :=
      edits_setEntity rfl
    have hwf := h₂.wf hq hk
    simp only [contains_eq_false hk, Bool.false_eq_true, if_false]
    split
    · refine (refreshNextKtimer_spec hwf fun _ => False).imp fun q₄ h₄ => ?_
      have hs : Settles (· = k) q q₄ := (h₄.mono fun _ h => h.elim).of_frame h₂.frame rfl
      exact ⟨hs.wf, hs.frame, (h₄.frame.linked k id).trans h₂.linked, hs.nowTicks,
        fun _ => hs.next, hkept (q.setEntity k ((q.entity k).setExpireAt expireAt)) q₄
          (by simp [setEntity, KTimerEntity.setExpireAt]) rfl h₄⟩
    · exact ⟨hwf, h₂.frame, h₂.linked, rfl, fun h => h,
        fun _ => by simp [setEntity, KTimerEntity.setExpireAt]⟩

end KTimers

end Rtsched

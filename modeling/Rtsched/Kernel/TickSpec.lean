import Rtsched.Kernel.WakeSpec

/-!
What a scheduler tick does.

* `Sched.Woken`: the effect of a part of a tick; such effects compose (`Sched.Woken.trans`).
* `Sched.wakeWaitThread_spec`, `Sched.dispatchExpired_spec`: the two loops, by induction on the
  number of turns from what one turn does.
* `Sched.handleSchedTick_spec`: **a tick wakes threads of the timeout tree, moves no other, and
  chooses the first active timer**.
-/

namespace Rtsched

open Ordered Outcome

/-- The panics that end `dispatch_expired`. -/
def Fault.Panics (f : Fault) : Prop := f = .deadlineMiss ∨ f = .arithmetic

lemma Fault.Panics.benign {f : Fault} (h : f.Panics) : f.Benign := h.elim Or.inl (Or.inr ∘ Or.inl)

namespace Sched

variable {s s' : Sched} {t : Tid}

/-- The timers that a tick may set besides expired ones: those of the system and of the threads
it wakes. -/
def tickTimers (s : Sched) (k : Timer) : Prop :=
  k = .cfs ∨ k = .wait ∨ ∃ t, k = .rt t ∧ s.state t = .waiting

/-- The expiration that `wake_wait_thread` gives the timer of an RT thread. -/
def timedExpireAt (s : Sched) (t : Tid) (elapsed : ℕ) : ℕ :=
  satAdd64 s.ktimers.nowTicks
    ((s.ktimers.entity (.rt t)).relativeDeadlineTicks - satAdd32 (s.ktimers.runtime t) elapsed)

/-- The timer of an RT thread that a tick has woken: it expires with the rest of the deadline, or a
new job has been started because there was no rest. -/
def TimedRt (elapsed : ℕ) (s s' : Sched) (t : Tid) : Prop :=
  ((s'.ktimers.entity (.rt t)).expireAt = s.timedExpireAt t elapsed ∧
    s'.ktimers.runtime t = satAdd32 (s.ktimers.runtime t) elapsed) ∨
  (s.timedExpireAt t elapsed ≤ s.ktimers.nowTicks ∧
    (s'.ktimers.entity (.rt t)).expireAt =
      satAdd64 s.ktimers.nowTicks (s.ktimers.entity (.rt t)).relativeDeadlineTicks ∧
    s'.ktimers.runtime t = 0)

lemma TimedRt.of_lt {elapsed : ℕ} (h : TimedRt elapsed s s' t)
    (hlt : s.ktimers.nowTicks < s.timedExpireAt t elapsed) :
    (s'.ktimers.entity (.rt t)).expireAt = s.timedExpireAt t elapsed ∧
      s'.ktimers.runtime t = satAdd32 (s.ktimers.runtime t) elapsed :=
  h.resolve_right fun hno => absurd hno.1 (not_le.mpr hlt)

/-- What a tick does to a thread in the timeout tree: nothing, or it makes the thread ready. -/
structure WokenThread (elapsed : ℕ) (s s' : Sched) (t : Tid) : Prop where
  place : s'.place t = s.place t ∨ s'.place t = .free (s.kind t) .ready (s.waitq.entity t).waitevt
  kept : s'.state t = .waiting → KTimers.Same s.ktimers s'.ktimers (.rt t)
  rt : s.kind t = .rt → s'.state t ≠ .waiting →
    .rt t ∈ s'.ktimers.active ∧ TimedRt elapsed s s' t
  due : s'.state t ≠ .waiting → (s.waitq.entity t).wakeAt ≤ s.ktimers.nowTicks

/-- The CFS threads that a part of a tick wakes have joined the run queue one after the other. -/
def JoinsWoken (s s' : Sched) : Prop :=
  ∃ ts : List Tid, ts.Nodup ∧
    (∀ u, u ∈ ts ↔ s.kind u = .cfs ∧ s.state u = .waiting ∧ s'.state u ≠ .waiting) ∧
    ts.foldlM RunQueue.enqueueFromWaitq s.runq = .ok s'.runq

/-- What one turn of `dispatch_expired` does at the time `now` to the CFS timer, given by whether
it is active and when it expires. -/
inductive CfsTurn (now periodTicks elapsed : ℕ) : Bool × ℕ → Bool × ℕ → Prop
  | parks {x : ℕ} (hx : x ≤ now) :
      CfsTurn now periodTicks elapsed (true, x) (false, satAdd64 now (periodTicks - elapsed))
  | opens {x : ℕ} (hx : x ≤ now) :
      CfsTurn now periodTicks elapsed (false, x) (true, satAdd64 now periodTicks)

/-- A CFS timer that is not expired after the turns was not expired before, or it has been parked,
or it has been activated, maybe after it was parked. -/
lemma CfsTurn.settled {now periodTicks elapsed : ℕ} {v w : Bool × ℕ}
    (h : Relation.ReflTransGen (CfsTurn now periodTicks elapsed) v w) (hcalm : now < w.2) :
    (now < v.2 ∧ w = v) ∨ (v.2 ≤ now ∧
      w = if v.1 = true ∧ now < satAdd64 now (periodTicks - elapsed)
        then (false, satAdd64 now (periodTicks - elapsed))
        else (true, satAdd64 now periodTicks)) := by
  have hle : satAdd64 now (periodTicks - elapsed) ≤ satAdd64 now periodTicks :=
    min_le_min (by omega) le_rfl
  induction h using Relation.ReflTransGen.head_induction_on with
  | refl => exact Or.inl ⟨hcalm, rfl⟩
  | head hturn _ ih =>
      cases hturn with
      | parks hx =>
          refine Or.inr ⟨hx, ?_⟩
          rcases ih with ⟨hlt, rfl⟩ | ⟨hexp, rfl⟩
          · exact (if_pos ⟨rfl, hlt⟩).symm
          · replace hexp : satAdd64 now (periodTicks - elapsed) ≤ now := hexp
            simp [Nat.not_lt.mpr hexp]
      | opens hx =>
          refine Or.inr ⟨hx, ?_⟩
          rcases ih with ⟨-, rfl⟩ | ⟨hexp, rfl⟩
          · simp
          · -- an activated timer that is expired at once cannot be at rest
            replace hexp : satAdd64 now periodTicks ≤ now := hexp
            rw [if_neg (by simp; omega)] at hcalm
            exact absurd hcalm (Nat.not_lt.mpr hexp)

/-- What a part of a tick does: it wakes threads of the timeout tree and moves no other. -/
structure Woken (elapsed : ℕ) (s s' : Sched) : Prop where
  tidy : s'.Tidy
  ok : ∀ u, (s'.place u).Ok
  other : ∀ u, s.state u ≠ .waiting → s'.place u = s.place u
  woken : ∀ u, s.state u = .waiting → WokenThread elapsed s s' u
  control : SameControl s s'
  frame : KTimers.Frame s.tickTimers s.ktimers s'.ktimers
  nowTicks : s'.ktimers.nowTicks = s.ktimers.nowTicks
  entity : s'.waitq.entity = s.waitq.entity
  keys : ∀ u, s.state u ≠ .waiting → s'.deadlineAt u = s.deadlineAt u
  runq : JoinsWoken s s'
  cfs : Relation.ReflTransGen
    (CfsTurn s.ktimers.nowTicks (s.ktimers.entity .cfs).periodTicks elapsed)
    s.ktimers.cfsView s'.ktimers.cfsView

namespace Woken

variable {elapsed : ℕ} {s'' : Sched}

/-- A thread in the timeout tree after the step was there before. -/
lemma waiting_of_waiting (h : Woken elapsed s s') {u : Tid} (hu : s'.state u = .waiting) :
    s.state u = .waiting := by
  by_contra hne
  have hstate : s'.state u = s.state u := congrArg Place.state (h.other u hne)
  exact hne (hstate.symm.trans hu)

/-- A step on the system timers and on expired ones moves no thread. -/
lemma of_ktimers (h : s.Tidy) (hok : ∀ u, (s.place u).Ok) {q : KTimers} (hq : q.Wf)
    (hframe : KTimers.Frame (fun k => k = .cfs ∨ k = .wait) s.ktimers q)
    (hnow : q.nowTicks = s.ktimers.nowTicks) (hcfs : Relation.ReflTransGen
      (CfsTurn s.ktimers.nowTicks (s.ktimers.entity .cfs).periodTicks elapsed)
      s.ktimers.cfsView q.cfsView) : Woken elapsed s { s with ktimers := q } := by
  have hplace : ∀ u, Sched.place { s with ktimers := q } u = s.place u := by
    intro u
    ext <;> simp [place, hframe.linked (.rt u) (by simp)]
  refine ⟨⟨hq, h.runq, h.waitq, h.suspended, h.waiters⟩, fun u => ?_, fun u _ => hplace u,
    fun u hu => ⟨Or.inl (hplace u), fun _ => ?_, fun _ hne => absurd hu hne,
      fun hne => absurd hu hne⟩,
    ⟨rfl, rfl, rfl, rfl, rfl, rfl⟩, hframe.mono ?_, hnow, rfl, fun _ _ => rfl, ?_, hcfs⟩
  · rw [hplace]
    exact hok u
  · -- the timer of a waiting thread is in no tree
    refine hframe.same _ (by simp) fun hl => ?_
    have hblocked : (s.state u).isBlocked = false := ((hok u).timer.mp hl.1).2
    rw [hu] at hblocked
    exact absurd hblocked (by decide)
  · rintro k (rfl | rfl)
    · exact Or.inl rfl
    · exact Or.inr (Or.inl rfl)
  · refine ⟨[], List.nodup_nil, fun u => ?_, rfl⟩
    simp

/-- No thread changes its kind. -/
lemma kind_eq (h : Woken elapsed s s') (u : Tid) : s'.kind u = s.kind u := by
  by_cases hu : s.state u = .waiting
  · rcases (h.woken u hu).place with hplace | hplace
    · exact congrArg Place.kind hplace
    · exact congrArg Place.kind hplace
  · exact congrArg Place.kind (h.other u hu)

/-- A thread that is not in the timeout tree stays out of it. -/
lemma ne_waiting (h : Woken elapsed s s') {u : Tid} (hu : s.state u ≠ .waiting) :
    s'.state u ≠ .waiting := fun hu' => hu (h.waiting_of_waiting hu')

/-- The threads woken by two parts of a tick have joined the run queue one after the other. -/
lemma joinsWoken_trans (h : Woken elapsed s s') (h' : Woken elapsed s' s'') :
    JoinsWoken s s'' := by
  obtain ⟨ts, hnodup, hmem, hrun⟩ := h.runq
  obtain ⟨ts', hnodup', hmem', hrun'⟩ := h'.runq
  refine ⟨ts ++ ts', ?_, fun u => ?_, ?_⟩
  · refine List.nodup_append.mpr ⟨hnodup, hnodup', fun u hu v hv => ?_⟩
    rintro rfl
    exact ((hmem u).mp hu).2.2 ((hmem' u).mp hv).2.1
  · rw [List.mem_append, hmem, hmem', h.kind_eq]
    by_cases hu : s'.state u = .waiting
    · simp [hu, h.waiting_of_waiting hu]
    · simp [hu, h'.ne_waiting hu]
  · rw [List.foldlM_append, hrun]
    exact hrun'

lemma trans (h : Woken elapsed s s') (h' : Woken elapsed s' s'') : Woken elapsed s s'' where
  tidy := h'.tidy
  ok := h'.ok
  other u hu := by
    have hstate : s'.state u = s.state u := congrArg Place.state (h.other u hu)
    rw [h'.other u (by rwa [hstate]), h.other u hu]
  control := h.control.trans h'.control
  frame := by
    refine h.frame.trans (h'.frame.mono ?_)
    rintro k (rfl | rfl | ⟨t, rfl, ht⟩)
    · exact Or.inl rfl
    · exact Or.inr (Or.inl rfl)
    · exact Or.inr (Or.inr ⟨t, rfl, h.waiting_of_waiting ht⟩)
  nowTicks := h'.nowTicks.trans h.nowTicks
  entity := h'.entity.trans h.entity
  keys u hu := (h'.keys u (h.ne_waiting hu)).trans (h.keys u hu)
  runq := h.joinsWoken_trans h'
  cfs := by
    have hcfs := h'.cfs
    rw [h.nowTicks, KTimerEntity.periodTicks, h.frame.timing] at hcfs
    exact h.cfs.trans hcfs
  woken u hu := by
    have hw := h.woken u hu
    by_cases hu' : s'.state u = .waiting
    · -- the first part has left the thread alone
      have hsame := hw.kept hu'
      have hplace : s'.place u = s.place u := by
        refine hw.place.resolve_right fun hready => ?_
        have hstate : s'.state u = .ready := congrArg Place.state hready
        rw [hstate] at hu'
        exact absurd hu' (by decide)
      have hkind : s'.kind u = s.kind u := congrArg Place.kind hplace
      have hevent : (s'.waitq.entity u).waitevt = (s.waitq.entity u).waitevt :=
        congrArg Place.event hplace
      have hrun : s'.ktimers.runtime u = s.ktimers.runtime u := hsame.runtime
      have hexp : s'.timedExpireAt u elapsed = s.timedExpireAt u elapsed := by
        simp only [timedExpireAt, hsame.entity, hrun, h.nowTicks]
      have hw' := h'.woken u hu'
      refine ⟨?_, fun hu'' => hsame.trans (hw'.kept hu''), fun hrt hne => ?_, fun hne => ?_⟩
      · rw [← hplace, ← hkind, ← hevent]
        exact hw'.place
      · obtain ⟨hact, htimed⟩ := hw'.rt (hkind.trans hrt) hne
        refine ⟨hact, ?_⟩
        rwa [TimedRt, hexp, hrun, h.nowTicks, hsame.entity] at htimed
      · rw [← h.entity, ← h.nowTicks]
        exact hw'.due hne
    · -- the second part leaves a thread alone that is already awake
      have hplace' : s''.place u = s'.place u := h'.other u hu'
      have hstate' : s''.state u = s'.state u := congrArg Place.state hplace'
      have hnot : ¬ s'.tickTimers (.rt u) := by simp [tickTimers, hu']
      refine ⟨?_, fun hu'' => absurd (hstate'.symm.trans hu'') hu', fun hrt _ => ?_,
        fun _ => hw.due hu'⟩
      · rw [hplace']
        exact hw.place
      · obtain ⟨hact, htimed⟩ := hw.rt hrt hu'
        rcases h'.frame.rearmed _ hnot with hsame | hnew
        · refine ⟨hsame.active.mpr hact, ?_⟩
          have hrun : s''.ktimers.runtime u = s'.ktimers.runtime u := hsame.runtime
          rwa [TimedRt, hsame.entity, hrun]
        · -- the second part has started a new job, so the timer was due after the first
          obtain ⟨n, hn, hn', hexp⟩ := hnew.expireAt
          have hdue := hnew.expired
          rw [h'.nowTicks, h.nowTicks] at hn' hdue
          rw [h.nowTicks] at hn
          obtain rfl : n = s.ktimers.nowTicks := le_antisymm hn' hn
          refine ⟨hnew.active, Or.inr ⟨?_, ?_, hnew.runtime⟩⟩
          · rcases htimed with ⟨heq, -⟩ | ⟨hle, -⟩
            · exact heq ▸ hdue
            · exact hle
          · rw [hexp, KTimers.renewalTicks_congr (h.frame.timing _)]
            rfl

/-- Waking one thread of the timeout tree. -/
lemma of_moves (hok : ∀ u, (s.place u).Ok)
    (h : Moves t (.free (s.kind t) .ready (s.waitq.entity t).waitevt) s s')
    (ht : s.state t = .waiting) (hnow : s'.ktimers.nowTicks = s.ktimers.nowTicks)
    (hdue : (s.waitq.entity t).wakeAt ≤ s.ktimers.nowTicks)
    (hentity : s'.waitq.entity = s.waitq.entity) (hrunq : s.kind t ≠ .cfs → s'.runq = s.runq)
    (hcfs : s.kind t = .cfs → s.runq.enqueueFromWaitq t = .ok s'.runq)
    (hrt : s.kind t = .rt → (s'.ktimers.entity (.rt t)).expireAt = s.timedExpireAt t elapsed ∧
      s'.ktimers.runtime t = satAdd32 (s.ktimers.runtime t) elapsed ∧
        .rt t ∈ s'.ktimers.active)
    (hsame : KTimers.Same s.ktimers s'.ktimers .cfs) : Woken elapsed s s' := by
  have hne : ∀ u, s.state u ≠ .waiting → u ≠ t := by
    rintro u hu rfl
    exact hu ht
  have hself : s'.state t = .ready := h.state_self
  refine ⟨h.tidy, h.ok hok (Place.ok_free (fun _ => rfl) (by simp)), fun u hu => h.other (hne u hu),
    fun u hu => ?_, h.control, h.frame.mono ?_, hnow, hentity,
    fun u hu => h.keys.sync u (hne u hu), ?_, by rw [hsame.cfsView_eq]⟩
  · by_cases hut : u = t
    · subst hut
      refine ⟨Or.inr h.self, fun hw => ?_, fun hk _ => ?_, fun _ => hdue⟩
      · rw [hself] at hw
        cases hw
      · exact ⟨(hrt hk).2.2, Or.inl ⟨(hrt hk).1, (hrt hk).2.1⟩⟩
    · have hstate : s'.state u = .waiting := (congrArg Place.state (h.other hut)).trans hu
      refine ⟨Or.inl (h.other hut), fun _ => ?_, fun _ hne => absurd hstate hne,
        fun hne => absurd hstate hne⟩
      refine h.frame.same _ (by simp [near, hut]) fun hl => ?_
      have hblocked : (s.state u).isBlocked = false := ((hok u).timer.mp hl.1).2
      rw [hu] at hblocked
      exact absurd hblocked (by decide)
  · rintro k (rfl | rfl | rfl)
    · exact Or.inl rfl
    · exact Or.inr (Or.inl rfl)
    · exact Or.inr (Or.inr ⟨t, rfl, ht⟩)
  · -- the thread is the only one that is woken
    have hother : ∀ u, u ≠ t → s'.state u = s.state u :=
      fun u hu => congrArg Place.state (h.other hu)
    by_cases hkind : s.kind t = .cfs
    · refine ⟨[t], List.nodup_singleton t, fun u => ?_, ?_⟩
      · by_cases hu : u = t
        · simp [hu, hkind, ht, hself]
        · simp [hu, hother u hu]
      · rw [List.foldlM_cons, hcfs hkind]
        rfl
    · refine ⟨[], List.nodup_nil, fun u => ?_, ?_⟩
      · by_cases hu : u = t
        · simp [hu, hkind]
        · simp [hother u hu]
      · rw [hrunq hkind]
        rfl

end Woken

/-! ### The timeout tree -/

/-- The first thread of the timeout tree has the least wake-up time. -/
lemma Tidy.firstWakeAt_le (h : s.Tidy) {n : ℕ} (hn : s.firstWakeAt = some n)
    (ht : t ∈ s.waitq.tree) : n ≤ (s.waitq.entity t).wakeAt := by
  obtain ⟨u, hu, rfl⟩ := Option.map_eq_some_iff.mp hn
  by_cases htu : t = u
  · rw [htu]
  · have hlt := h.waitq.head_lt hu ht htu
    rw [WaitQueue.cmp, compareLex, compareOn, Ordering.then_eq_lt] at hlt
    rcases hlt with hlt | ⟨heq, -⟩
    · exact (Nat.compare_eq_lt.mp hlt).le
    · exact (Nat.compare_eq_eq.mp heq).le

/-- While the wait timer is not expired, no thread of the timeout tree is due: the timer stands for
the first one. -/
lemma Tidy.wakeAt_lt (h : s.Tidy) (harmed : s.WaitArmed) (hwait : s.ktimers.Linked .wait)
    (hcalm : s.ktimers.Calm) (ht : t ∈ s.waitq.tree) :
    s.ktimers.nowTicks < (s.waitq.entity t).wakeAt := by
  have hlt := hcalm .wait hwait
  rw [harmed] at hlt
  cases hn : s.firstWakeAt with
  | none =>
      have hnil : s.waitq.tree = [] := by simpa [firstWakeAt] using hn
      rw [hnil] at ht
      cases ht
  | some n =>
      rw [hn] at hlt
      exact hlt.trans_le (h.firstWakeAt_le hn ht)

/-- The RT branch of `wake_wait_thread`. -/
lemma wakeRtThread_spec (h : s.Tidy) (ht : ¬ s.ktimers.Linked (.rt t)) (elapsed : ℕ) :
    ∃ s', s.wakeRtThread t elapsed = .ok s' ∧ Moves t { s.place t with timer := True } s s' ∧
      s'.ktimers.nowTicks = s.ktimers.nowTicks ∧
      (s'.ktimers.entity (.rt t)).expireAt = s.timedExpireAt t elapsed ∧
      s'.ktimers.runtime t = satAdd32 (s.ktimers.runtime t) elapsed ∧
      .rt t ∈ s'.ktimers.active ∧ s'.runq = s.runq ∧ s'.waitq = s.waitq ∧
      KTimers.Same s.ktimers s'.ktimers .cfs := by
  let q₁ := (s.ktimers.setRuntime t
    (satAdd32 (s.ktimers.runtime t) elapsed)).recordRtBudgetOverrun t
  let q₂ := q₁.setEntity (.rt t) ((q₁.entity (.rt t)).setExpireAfter q₁.nowTicks
    ((q₁.entity (.rt t)).relativeDeadlineTicks - q₁.runtime t))
  have hedits : KTimers.Edits (.rt t) s.ktimers q₂ :=
    (KTimers.edits_setRuntime.trans KTimers.edits_recordRtBudgetOverrun).trans
      (KTimers.edits_setEntity rfl)
  have hrun : q₂.runtime t = satAdd32 (s.ktimers.runtime t) elapsed := by
    simp [q₂, q₁, KTimers.setEntity, KTimers.setRuntime]
  have hexp : (q₂.entity (.rt t)).expireAt = s.timedExpireAt t elapsed := by
    simp [q₂, q₁, KTimers.setEntity, KTimers.setRuntime, KTimerEntity.setExpireAfter,
      timedExpireAt]
  have hnow : q₂.nowTicks = s.ktimers.nowTicks := by
    simp [q₂, q₁, KTimers.setEntity, KTimers.setRuntime]
  have hnot : ¬ q₂.Linked (.rt t) := fun hl => ht (hedits.linked.mp hl)
  obtain ⟨q₃, hins, h₃⟩ := KTimers.insert_spec (hedits.wf h.ktimers ht) hnot (a := true) (by simp)
  have hframe : KTimers.Frame (· = .rt t) s.ktimers q₃ := hedits.frame.trans h₃.frame
  refine ⟨{ s with ktimers := q₃ }, ?_, ?_, h₃.nowTicks.trans hnow, ?_, ?_,
    (h₃.active _).mpr (Or.inr ⟨rfl, rfl⟩), rfl, rfl,
    (hedits.same (by simp)).trans (h₃.same (by simp))⟩
  · rw [wakeRtThread, KTimers.enqueueActive]
    exact hins ▸ rfl
  · refine (moves_ktimers (t := t) h h₃.wf (hframe.mono fun k hk => Or.inr (Or.inr hk))
      fun k hk => hframe.linked k hk).congr ?_
    rw [eq_true h₃.linked_self]
  · change (q₃.entity (.rt t)).expireAt = _
    rw [h₃.entity_self, ← hexp]
  · change q₃.runtime t = _
    rw [h₃.runtime, hrun]

/-- One turn of `wake_wait_thread`. -/
lemma wakeTurn_spec (h : s.Tidy) (hok : ∀ u, (s.place u).Ok) {l : List Tid}
    (htree : s.waitq.tree = t :: l) (hdue : (s.waitq.entity t).wakeAt ≤ s.ktimers.nowTicks)
    (elapsed : ℕ) :
    Ends (· = .arithmetic)
      (setState { s with waitq := { s.waitq with tree := l } } t .ready >>= fun s =>
        s.wakeTimed t elapsed) fun s' =>
      Woken elapsed s s' ∧ (s'.ktimers.Linked .cfs ↔ s.ktimers.Linked .cfs) ∧
        (s'.ktimers.Linked .wait ↔ s.ktimers.Linked .wait) ∧ s'.waitq.tree = l := by
  have hmem : (s.place t).timed := by
    change t ∈ s.waitq.tree
    rw [htree]
    exact List.mem_cons_self ..
  have ht : s.state t = .waiting := (hok t).timed.mp hmem
  have hp : s.place t = .free (s.kind t) .waiting (s.waitq.entity t).waitevt := by
    have hfree := (hok t).eq_free (by rw [(hok t).timed.mp hmem]; decide)
    rwa [(hok t).timed.mp hmem] at hfree
  have hidle : s.kind t ≠ .idle :=
    (hok t).kind_ne_idle (by rw [(hok t).timed.mp hmem]; rfl)
  have hinc : Increasing s.waitq.cmp (t :: l) := htree ▸ h.waitq
  -- the thread leaves the timeout tree and is made ready
  have h₁ : Moves t { s.place t with timed := False } s
      { s with waitq := { s.waitq with tree := l } } := by
    refine (moves_waitq (t := t) h { s.waitq with tree := l } (List.pairwise_cons.mp hinc).2
      h.suspended fun u hu => ⟨by simp [htree, hu], Iff.rfl, rfl⟩).congr ?_
    rw [eq_false (List.nodup_cons.mp (Increasing.nodup hinc)).1]
    rfl
  obtain ⟨s₂, hset, h₂, hk₂, hr₂, hw₂, -⟩ := setState_spec (t := t) (x := .ready) h₁.tidy
    (ThreadState.canTransitionTo_ready _)
  have hk : s₂.ktimers = s.ktimers := hk₂
  have hr : s₂.runq = s.runq := hr₂
  have hentity : s₂.waitq.entity = s.waitq.entity := by rw [hw₂]
  have hkind₂ : s₂.kind t = s.kind t := h₂.kind_self
  have hp₂ : s₂.place t = { s.place t with timed := False, state := .ready } := by
    rw [h₂.self, h₁.self]
  rw [hset, ok_bind, wakeTimed, hkind₂]
  cases hkind : s.kind t with
  | idle => exact absurd hkind hidle
  | cfs =>
      have hqueued : ¬ (s₂.place t).queued := by
        rw [hp₂, hp]
        exact fun hq => absurd hq.2 (by decide)
      refine (enqueueRunqFromWaitq_spec h₂.tidy (hkind₂.trans hkind) hqueued).imp
        fun s₃ ⟨h₃, hk₃, hw₃, hr₃⟩ => ?_
      have hk' : s₃.ktimers = s.ktimers := hk₃.trans hk
      rw [hk']
      refine ⟨.of_moves hok ((h₁.trans (h₂.trans h₃)).congr ?_) ht (by rw [hk']) hdue
        (by rw [hw₃, hentity]) (fun hne => absurd hkind hne) (fun _ => by rw [← hr, hr₃])
        (fun hrt => absurd (hrt.symm.trans hkind) (by decide)) (hk' ▸ .refl _ _),
        Iff.rfl, Iff.rfl, by rw [hw₃, hw₂]⟩
      rw [hp₂, hp, hkind]
      ext <;> simp [Place.settled, ThreadState.isBlocked]
  | rt =>
      have hnot : ¬ s₂.ktimers.Linked (.rt t) := by
        rw [hk]
        intro hl
        have hblocked : (s.state t).isBlocked = false := ((hok t).timer.mp hl).2
        rw [ht] at hblocked
        exact absurd hblocked (by decide)
      obtain ⟨s₃, hwake, h₃, hnow, hexp, hrun, hact, hr₃, hw₃, hsame⟩ :=
        wakeRtThread_spec h₂.tidy hnot elapsed
      have htimed : s₂.timedExpireAt t elapsed = s.timedExpireAt t elapsed := by
        rw [timedExpireAt, hk, timedExpireAt]
      simp only [hwake]
      have hmoves := h₁.trans (h₂.trans h₃)
      refine ⟨.of_moves hok (hmoves.congr ?_) ht (by rw [hnow, hk]) hdue (by rw [hw₃, hentity])
        (fun _ => hr₃.trans hr) (fun hcfs => absurd (hkind.symm.trans hcfs) (by decide))
        (fun _ => ⟨hexp.trans htimed, by rw [hrun, hk], hact⟩) (hk ▸ hsame),
        hmoves.linked _ (by simp),
        hmoves.linked _ (by simp), by rw [hw₃, hw₂]⟩
      rw [hp₂, hp, hkind]
      ext <;> simp [Place.settled, ThreadState.isBlocked]

/-- No thread of the timeout tree is due. -/
def NoneDue (s : Sched) : Prop := ∀ u ∈ s.waitq.tree, s.ktimers.nowTicks < (s.waitq.entity u).wakeAt

/-- No thread is due if the first one is not. -/
lemma Tidy.noneDue_of_head (h : s.Tidy) {l : List Tid} (htree : s.waitq.tree = t :: l)
    (hlate : s.ktimers.nowTicks < (s.waitq.entity t).wakeAt) : s.NoneDue := by
  intro u hu
  have hfirst : s.firstWakeAt = some (s.waitq.entity t).wakeAt := by
    rw [firstWakeAt, htree]
    rfl
  exact hlate.trans_le (h.firstWakeAt_le hfirst hu)

/-- **Specification of `wake_wait_thread`,** by induction on the number of turns.  With as many
turns as threads in the timeout tree no due thread stays behind. -/
theorem wakeWaitThread_spec (elapsed n : ℕ) : ∀ s : Sched, s.Tidy → (∀ u, (s.place u).Ok) →
    Ends (· = .arithmetic) (wakeWaitThread elapsed n s) fun s' =>
      Woken elapsed s s' ∧ (s'.ktimers.Linked .cfs ↔ s.ktimers.Linked .cfs) ∧
        (s'.ktimers.Linked .wait ↔ s.ktimers.Linked .wait) ∧
        (s.waitq.tree.length ≤ n → s'.NoneDue) := by
  have hrefl : ∀ s : Sched, s.Tidy → (∀ u, (s.place u).Ok) → Woken elapsed s s :=
    fun s h hok => .of_ktimers h hok h.ktimers (.refl _) rfl .refl
  have hempty : ∀ s : Sched, s.waitq.tree = [] → s.NoneDue := by
    intro s hnil u hu
    rw [hnil] at hu
    cases hu
  induction n with
  | zero =>
      intro s h hok
      exact ⟨hrefl s h hok, Iff.rfl, Iff.rfl,
        fun hlen => hempty s (List.length_eq_zero_iff.mp (Nat.le_zero.mp hlen))⟩
  | succ n ih =>
      intro s h hok
      cases htree : s.waitq.tree with
      | nil =>
          simp only [wakeWaitThread, htree]
          exact ⟨hrefl s h hok, Iff.rfl, Iff.rfl, fun _ => hempty s htree⟩
      | cons t l =>
          simp only [wakeWaitThread, htree]
          split
          · rename_i hdue
            rw [← bind_assoc]
            refine (wakeTurn_spec h hok htree hdue elapsed).bind
              fun s₁ ⟨h₁, hcfs, hwait, htree₁⟩ => ?_
            refine (ih s₁ h₁.tidy h₁.ok).imp fun s₂ ⟨h₂, hcfs₂, hwait₂, hnone⟩ => ?_
            refine ⟨h₁.trans h₂, hcfs₂.trans hcfs, hwait₂.trans hwait, fun hlen => hnone ?_⟩
            rw [htree₁]
            exact Nat.le_of_succ_le_succ hlen
          · rename_i hlate
            exact ⟨hrefl s h hok, Iff.rfl, Iff.rfl,
              fun _ => h.noneDue_of_head htree (not_le.mp hlate)⟩

/-! ### Dispatching -/

lemma linked_of_first {q : KTimers} {k : Timer} (h : q.first = some k) : q.Linked k := by
  unfold KTimers.first at h
  split at h
  · exact Or.inr (List.mem_of_mem_head? h)
  · rename_i a ha hi
    obtain rfl : a = k := by simpa using h
    exact Or.inl (List.mem_of_mem_head? ha)
  · rename_i a b ha hb
    split at h
    · obtain rfl : a = k := by simpa using h
      exact Or.inl (List.mem_of_mem_head? ha)
    · obtain rfl : b = k := by simpa using h
      exact Or.inr (List.mem_of_mem_head? hb)

/-- What one turn of `dispatch_expired` does with the expired timer `k`. -/
structure Turn (k : Timer) (elapsed : ℕ) (s s' : Sched) : Prop where
  woken : Woken elapsed s s'
  linked_cfs : s'.ktimers.Linked .cfs ↔ s.ktimers.Linked .cfs
  linked_wait : s'.ktimers.Linked .wait ↔ s.ktimers.Linked .wait
  armed : s.WaitArmed → s'.WaitArmed
  other : k ≠ .wait → ∀ j ≠ k, KTimers.Same s.ktimers s'.ktimers j
  cfs : k = .cfs → CfsTurn s.ktimers.nowTicks (s.ktimers.entity .cfs).periodTicks elapsed
    s.ktimers.cfsView s'.ktimers.cfsView
  rt : ∀ t, k = .rt t → (s'.ktimers.entity k).expireAt =
    satAdd64 s.ktimers.nowTicks (s.ktimers.entity k).relativeDeadlineTicks
  wait : k = .wait → s'.NoneDue

lemma WaitArmed.of_same (h : s.WaitArmed) {q : KTimers} (hq : KTimers.Same s.ktimers q .wait) :
    WaitArmed { s with ktimers := q } := by
  rw [WaitArmed, hq.entity]
  exact h

/-- One turn of `dispatch_expired` for the timer of an RT thread. -/
lemma relink_rt (h : s.Tidy) (hok : ∀ u, (s.place u).Ok) {k : Timer} (hk : s.ktimers.Linked k)
    (hexp : s.ktimers.expired k = true) (hkt : k = .rt t) {q : KTimers} {q₁ q₂ : KTimers}
    (h₁ : KTimers.Unlinks k s.ktimers q₁) (hedits : KTimers.Edits k q₁ q₂)
    (hnow : q₂.nowTicks = q₁.nowTicks) (hrun : q₂.runtimeOf k = 0)
    (hnew : (q₂.entity k).expireAt = satAdd64 q₁.nowTicks (q₁.renewalTicks k))
    (h₃ : KTimers.Links k true q₂ q) (elapsed : ℕ) :
    Turn k elapsed s { s with ktimers := q } := by
  have hcfs : k ≠ .cfs := by simp [hkt]
  have hframe : KTimers.Frame (· = k) s.ktimers q :=
    h₁.frame.trans (hedits.frame.trans h₃.frame)
  have hnow' : q.nowTicks = s.ktimers.nowTicks := h₃.nowTicks.trans (hnow.trans h₁.nowTicks)
  have hle : (s.ktimers.entity k).expireAt ≤ q.nowTicks := by
    rw [hnow']
    simpa [KTimers.expired, KTimerEntity.isExpiredAt] using hexp
  have hticks : q₁.renewalTicks k = s.ktimers.renewalTicks k :=
    KTimers.renewalTicks_congr (by rw [h₁.entity])
  have hrenewed : KTimers.Renewed s.ktimers q k := by
    refine ⟨hle, fun hk => absurd hk hcfs, (h₃.active k).mpr (Or.inr ⟨rfl, rfl⟩),
      h₃.runtimeOf_eq.trans hrun, s.ktimers.nowTicks, le_rfl, hnow'.ge, ?_⟩
    rw [h₃.entity_self, ← hticks, ← h₁.nowTicks, ← hnew]
  have hdrop : ∀ K : Timer → Prop, KTimers.Frame K s.ktimers q :=
    fun K => hframe.drop hk hrenewed
  have hsame : ∀ j ≠ k, KTimers.Same s.ktimers q j := fun j hj =>
    (h₁.same hj).trans ((hedits.same hj).trans (h₃.same hj))
  have hlinked : ∀ j, q.Linked j ↔ s.ktimers.Linked j := fun j =>
    (hdrop fun _ => False).linked j id
  refine ⟨.of_ktimers h hok h₃.wf (hdrop _) hnow' (by rw [(hsame _ hcfs.symm).cfsView_eq]),
    hlinked _, hlinked _, fun ha => ha.of_same (hsame _ (by simp [hkt])), fun _ => hsame,
    fun hc => absurd hc hcfs, fun u _ => ?_, fun hw => by simp [hkt] at hw⟩
  rw [h₃.entity_self]
  refine hnew.trans ?_
  rw [h₁.nowTicks, hticks, hkt]
  rfl

/-- One turn of `dispatch_expired` for the CFS timer. -/
lemma relink_cfs (h : s.Tidy) (hok : ∀ u, (s.place u).Ok) (hk : s.ktimers.Linked .cfs)
    {q : KTimers} {a : Bool}
    {q₁ q₂ : KTimers} (h₁ : KTimers.Unlinks .cfs s.ktimers q₁) (hedits : KTimers.Edits .cfs q₁ q₂)
    (hnow : q₂.nowTicks = q₁.nowTicks) (h₃ : KTimers.Links .cfs a q₂ q) (elapsed : ℕ)
    (hturn : CfsTurn s.ktimers.nowTicks (s.ktimers.entity .cfs).periodTicks elapsed
      s.ktimers.cfsView (a, (q₂.entity .cfs).expireAt)) :
    Turn .cfs elapsed s { s with ktimers := q } := by
  have hframe : KTimers.Frame (· = .cfs) s.ktimers q :=
    h₁.frame.trans (hedits.frame.trans h₃.frame)
  have hsame : ∀ j ≠ .cfs, KTimers.Same s.ktimers q j := fun j hj =>
    (h₁.same hj).trans ((hedits.same hj).trans (h₃.same hj))
  have hnow' : q.nowTicks = s.ktimers.nowTicks := h₃.nowTicks.trans (hnow.trans h₁.nowTicks)
  have hview : q.cfsView = (a, (q₂.entity .cfs).expireAt) := by
    rw [KTimers.cfsView, h₃.entity_self]
  exact ⟨.of_ktimers h hok h₃.wf (hframe.mono fun k hk => Or.inl hk) hnow' (hview ▸ .single hturn),
    iff_of_true h₃.linked_self hk, hframe.linked _ (by simp),
    fun ha => ha.of_same (hsame _ (by simp)), fun _ => hsame, fun _ => hview ▸ hturn,
    fun u hu => (by cases hu), fun hw => by cases hw⟩

/-- **One turn of `dispatch_expired`.** -/
lemma dispatchTurn_spec (h : s.Tidy) (hok : ∀ u, (s.place u).Ok) {k : Timer}
    (hk : s.ktimers.Linked k) (hexp : s.ktimers.expired k = true) (elapsed : ℕ) :
    Ends Fault.Panics
      (s.ktimers.remove k >>= fun q => dispatchTimer { s with ktimers := q } k elapsed)
      (Turn k elapsed s) := by
  cases k with
  | cfs =>
      obtain ⟨q₁, hrem, h₁⟩ := KTimers.remove_spec h.ktimers hk
      have hins : ∀ ticks a, CfsTurn s.ktimers.nowTicks (s.ktimers.entity .cfs).periodTicks elapsed
            s.ktimers.cfsView (a, satAdd64 q₁.nowTicks ticks) →
          ∃ q, ((q₁.setEntity .cfs ((q₁.entity .cfs).setExpireAfter
            q₁.nowTicks ticks)).insert .cfs a) = .ok q ∧
          Turn .cfs elapsed s { s with ktimers := q } := by
        intro ticks a hturn
        have hedits : KTimers.Edits .cfs q₁ (q₁.setEntity .cfs
            ((q₁.entity .cfs).setExpireAfter q₁.nowTicks ticks)) := KTimers.edits_setEntity rfl
        obtain ⟨q, hins, h₃⟩ := KTimers.insert_spec (hedits.wf h₁.wf h₁.not_linked)
          (fun hl => h₁.not_linked (hedits.linked.mp hl)) (a := a) (by simp)
        refine ⟨q, hins, relink_cfs h hok hk h₁ hedits rfl h₃ elapsed ?_⟩
        have hset : ((q₁.setEntity .cfs ((q₁.entity .cfs).setExpireAfter q₁.nowTicks
            ticks)).entity .cfs).expireAt = satAdd64 q₁.nowTicks ticks := by
          simp [KTimers.setEntity, KTimerEntity.setExpireAfter]
        rwa [hset]
      have hle : (s.ktimers.entity .cfs).expireAt ≤ s.ktimers.nowTicks := by
        simpa [KTimers.expired, KTimerEntity.isExpiredAt] using hexp
      simp only [hrem, ok_bind, dispatchTimer, KTimers.enqueueInactive, KTimers.enqueueActive]
      split
      · rename_i hact
        obtain ⟨q, hq, hturn⟩ :=
          hins ((q₁.entity .cfs).periodTicks - elapsed) false (by
            rw [h₁.entity] at hact ⊢
            rw [KTimers.cfsView, hact, h₁.nowTicks]
            exact .parks hle)
        rw [hq]
        exact hturn
      · rename_i hact
        obtain ⟨q, hq, hturn⟩ := hins (q₁.entity .cfs).periodTicks true (by
          rw [h₁.entity] at hact ⊢
          rw [KTimers.cfsView, Bool.eq_false_of_not_eq_true hact, h₁.nowTicks]
          exact .opens hle)
        rw [hq]
        exact hturn
  | rt t =>
      obtain ⟨q₁, hrem, h₁, hins⟩ := KTimers.relink_spec h.ktimers hk (a := true) (by simp)
      simp only [hrem, ok_bind, dispatchTimer]
      split
      · exact Or.inl rfl
      · obtain ⟨q, hq, h₃, -⟩ := hins _ KTimers.edits_rearmRt
        rw [KTimers.enqueueActive, hq]
        exact relink_rt h hok hk hexp rfl h₁ KTimers.edits_rearmRt rfl
          (KTimers.runtimeOf_rearmRt q₁ t) (KTimers.expireAt_rearmRt q₁ t) h₃ elapsed
  | wait =>
      obtain ⟨q₁, hrem, h₁⟩ := KTimers.remove_spec h.ktimers hk
      simp only [hrem, ok_bind, dispatchTimer]
      -- the wait timer is out of the queue while the threads are woken
      have hout : Woken elapsed s { s with ktimers := q₁ } :=
        .of_ktimers h hok h₁.wf (h₁.frame.mono fun k hk => Or.inr hk) h₁.nowTicks
          (by rw [(h₁.same (by simp)).cfsView_eq])
      refine ((wakeWaitThread_spec elapsed _ _ hout.tidy hout.ok).weaken
        fun _ => Or.inr).bind ?_
      rintro s₂ ⟨h₂, hcfs₂, hwait₂, hnone⟩
      have hnot : ¬ s₂.ktimers.Linked .wait := fun hl => h₁.not_linked (hwait₂.mp hl)
      have hedits : KTimers.Edits .wait s₂.ktimers (s₂.ktimers.setEntity .wait
          ((s₂.ktimers.entity .wait).setExpireAt (KTimers.waitExpireAt s₂.firstWakeAt))) :=
        KTimers.edits_setEntity rfl
      obtain ⟨q, hq, h₃⟩ := KTimers.insert_spec (hedits.wf h₂.tidy.ktimers hnot)
        (fun hl => hnot (hedits.linked.mp hl)) (a := false) (fun _ => rfl)
      have hframe : KTimers.Frame (· = .wait) s₂.ktimers q := hedits.frame.trans h₃.frame
      have hback : Woken elapsed s₂ { s₂ with ktimers := q } :=
        .of_ktimers h₂.tidy h₂.ok h₃.wf (hframe.mono fun k hk => Or.inr hk) h₃.nowTicks
          (by rw [((hedits.same (by simp)).trans (h₃.same (by simp))).cfsView_eq])
      simp only [KTimers.enqueueInactive, hq, ok_bind]
      refine ⟨hout.trans (h₂.trans hback),
        (hframe.linked .cfs (by simp)).trans (hcfs₂.trans (h₁.frame.linked .cfs (by simp))),
        iff_of_true h₃.linked_self hk, fun _ => ?_, fun hne => absurd rfl hne,
        fun hc => (by cases hc), fun u hu => (by cases hu), fun _ u hu => ?_⟩
      · rw [WaitArmed, h₃.entity_self]
        simp [KTimers.setEntity, KTimerEntity.setExpireAt, firstWakeAt]
      · change q.nowTicks < _
        rw [h₃.nowTicks]
        exact hnone le_rfl u hu

/-- **Specification of `dispatch_expired`,** by induction on the number of turns. -/
theorem dispatchExpired_spec (elapsed n : ℕ) : ∀ s : Sched, s.Tidy → (∀ u, (s.place u).Ok) →
    Ends Fault.Benign (dispatchExpired elapsed n s) fun s' =>
      Woken elapsed s s' ∧ (s'.ktimers.Linked .cfs ↔ s.ktimers.Linked .cfs) ∧
        (s'.ktimers.Linked .wait ↔ s.ktimers.Linked .wait) ∧ (s.WaitArmed → s'.WaitArmed) ∧
        s'.ktimers.Calm := by
  induction n with
  | zero => exact fun s _ _ => Or.inr (Or.inr rfl)
  | succ n ih =>
      intro s h hok
      have hrefl : Woken elapsed s s := .of_ktimers h hok h.ktimers (.refl _) rfl .refl
      unfold dispatchExpired
      cases hfirst : s.ktimers.first with
      | none =>
          exact ⟨hrefl, Iff.rfl, Iff.rfl, id, KTimers.calm_of_first h.ktimers (by simp [hfirst])⟩
      | some k =>
          simp only
          split
          · rename_i hexp
            rw [← bind_assoc]
            refine ((dispatchTurn_spec h hok (linked_of_first hfirst) hexp elapsed).weaken
              fun _ => Fault.Panics.benign).bind fun s₁ h₁ => ?_
            exact (ih s₁ h₁.woken.tidy h₁.woken.ok).imp
              fun s₂ ⟨h₂, hcfs₂, hwait₂, harmed₂, hcalm⟩ => ⟨h₁.woken.trans h₂,
                hcfs₂.trans h₁.linked_cfs, hwait₂.trans h₁.linked_wait, harmed₂ ∘ h₁.armed, hcalm⟩
          · rename_i hexp
            refine ⟨hrefl, Iff.rfl, Iff.rfl, id, KTimers.calm_of_first h.ktimers ?_⟩
            rintro j hj
            obtain rfl : k = j := by simpa [hfirst] using hj
            exact hexp

/-- The state in which a tick dispatches: the time of the queue has advanced. -/
def advanced (s : Sched) (elapsed : ℕ) : Sched :=
  { s with ktimers := s.ktimers.advanceTime elapsed }

lemma advanced_tidy (h : s.Tidy) (elapsed : ℕ) : (s.advanced elapsed).Tidy :=
  ⟨⟨h.ktimers.active, h.ktimers.inactive, h.ktimers.flag_active, h.ktimers.flag_inactive,
    h.ktimers.wait_notMem, min_le_right _ _⟩, h.runq, h.waitq, h.suspended, h.waiters⟩

/-- **Specification of `handle_sched_tick`.** -/
theorem handleSchedTick_spec (h : s.Tidy) (hok : ∀ u, (s.place u).Ok)
    (hcfs : s.ktimers.Linked .cfs) (hwait : s.ktimers.Linked .wait) (hstarted : s.started = true)
    (port : TimerPort) (fuel : ℕ) :
    Ends Fault.Benign (s.handleSchedTick port fuel) fun s' =>
      ∃ s₁, s' = s₁.requestContextSwitch ∧
        Woken (s.ktimers.elapsedTicksSinceLastInterrupt port)
          (s.advanced (s.ktimers.elapsedTicksSinceLastInterrupt port)) s₁ ∧
        s₁.ktimers.Linked .cfs ∧ s₁.ktimers.Linked .wait ∧
        s₁.ktimers.next = s₁.ktimers.active.head? ∧ (s.WaitArmed → s₁.WaitArmed) ∧
        s₁.ktimers.Calm := by
  rw [handleSchedTick, if_pos hstarted]
  refine (dispatchExpired_spec _ fuel _ (advanced_tidy h _) hok).bind
    fun s₁ ⟨h₁, hcfs₁, hwait₁, harmed, hcalm⟩ => ?_
  have hnext : Woken (s.ktimers.elapsedTicksSinceLastInterrupt port) s₁
      { s₁ with ktimers := s₁.ktimers.updateNextKtimer s₁.ktimers.firstActive } :=
    .of_ktimers h₁.tidy h₁.ok (KTimers.wf_next h₁.tidy.ktimers _) (KTimers.frame_next _ _) rfl .refl
  exact ⟨_, rfl, h₁.trans hnext, hcfs₁.mpr hcfs, hwait₁.mpr hwait, rfl, harmed, hcalm⟩

end Sched

end Rtsched

import Rtsched.Kernel.CfsSpec

/-!
How far the virtual runtimes of the CFS threads drift apart.

* `Sched.Fair d s`: the CFS threads that are not blocked are within `d` of each other, and the
  running one is behind all queued ones.
* `Fairness`: a kernel with the largest charge that `schedule` has made so far.
* `Fairness.reachable_fair`: **the virtual runtimes differ by at most the largest charge** in every
  serialized run in which no CFS thread joins an empty run queue beside a running one.
-/

namespace Rtsched

open Outcome

variable {α : Type}

namespace RunQueue

variable {r r' : RunQueue} {t : Tid} {A : Tid → Prop} {d : ℕ}

/-- The queued threads and the threads of `A`, which run, are within `d` of each other, and those of
`A` are behind the queued ones. -/
structure Spread (d : ℕ) (A : Tid → Prop) (r : RunQueue) : Prop where
  near : ∀ t u, t ∈ r.tree ∨ A t → u ∈ r.tree ∨ A u →
    (r.entity t).vruntime ≤ (r.entity u).vruntime + d
  behind : ∀ t, A t → ∀ u ∈ r.tree, (r.entity t).vruntime ≤ (r.entity u).vruntime

lemma Spread.mono {A' : Tid → Prop} (h : Spread d A r) (hA : ∀ t, A' t → A t) : Spread d A' r :=
  ⟨fun t u ht hu => h.near t u (ht.imp_right (hA t)) (hu.imp_right (hA u)),
    fun t ht => h.behind t (hA t ht)⟩

lemma Spread.setEntity (h : Spread d A r) (ht : t ∉ r.tree) (hA : ¬ A t) (e : SchedEntity) :
    Spread d A (r.setEntity t e) := by
  have hne : ∀ u, u ∈ r.tree ∨ A u → (r.setEntity t e).entity u = r.entity u := by
    intro u hu
    refine setEntity_of_ne _ ?_ e
    rintro rfl
    exact hu.elim ht hA
  refine ⟨fun u v hu hv => ?_, fun u hu v hv => ?_⟩
  · rw [hne u hu, hne v hv]
    exact h.near u v hu hv
  · rw [hne u (Or.inr hu), hne v (Or.inl hv)]
    exact h.behind u hu v hv

/-- A thread that joins takes the virtual runtime of the first queued thread.  With an empty queue
it keeps its own, which does no harm if no thread of `A` runs. -/
lemma Spread.join (h : Spread d A r) (hA : ¬ A t) (hjoin : Joins t r r')
    (hlone : r.tree = [] → ∀ u, ¬ A u) : Spread d A r' := by
  have hother : ∀ u, u ≠ t → (r'.entity u).vruntime = (r.entity u).vruntime := by
    intro u hu
    rw [hjoin.vruntime, if_neg hu]
  have hself : (r'.entity t).vruntime = r.joinVruntime t := by rw [hjoin.vruntime, if_pos rfl]
  have hmem : ∀ u, u ∈ r'.tree ∨ A u → u = t ∨ (u ≠ t ∧ (u ∈ r.tree ∨ A u)) := by
    intro u hu
    by_cases hut : u = t
    · exact Or.inl hut
    · refine Or.inr ⟨hut, hu.imp_left fun hu => ?_⟩
      exact ((hjoin.mem u).mp hu).resolve_right hut
  cases hhead : r.tree.head? with
  | none =>
      have hnil : r.tree = [] := List.head?_eq_none_iff.mp hhead
      have honly : ∀ u, u ∈ r'.tree ∨ A u → u = t := by
        intro u hu
        rcases hmem u hu with hut | ⟨-, hu | hu⟩
        · exact hut
        · rw [hnil] at hu
          cases hu
        · exact absurd hu (hlone hnil u)
      refine ⟨fun u v hu hv => ?_, fun u hu => absurd hu (hlone hnil u)⟩
      rw [honly u hu, honly v hv]
      exact Nat.le_add_right ..
  | some l =>
      have hl : l ∈ r.tree := List.mem_of_mem_head? hhead
      rw [joinVruntime, hhead, Option.getD_some] at hself
      refine ⟨fun u v hu hv => ?_, fun u hu v hv => ?_⟩
      · rcases hmem u hu with rfl | ⟨hut, hu⟩
        · rcases hmem v hv with rfl | ⟨hvt, hv⟩
          · exact Nat.le_add_right ..
          · rw [hself, hother v hvt]
            exact h.near l v (Or.inl hl) hv
        · rw [hother u hut]
          rcases hmem v hv with rfl | ⟨hvt, hv⟩
          · rw [hself]
            exact h.near u l hu (Or.inl hl)
          · rw [hother v hvt]
            exact h.near u v hu hv
      · have hut : u ≠ t := by
          rintro rfl
          exact hA hu
        rw [hother u hut]
        by_cases hvt : v = t
        · rw [hvt, hself]
          exact h.behind u hu l hl
        · rw [hother v hvt]
          exact h.behind u hu v (((hjoin.mem v).mp hv).resolve_right hvt)

/-- Threads that join one after the other. -/
lemma Spread.foldlM {ts : List Tid} (h : Spread d A r) (hr : r.Ordered) (hnodup : ts.Nodup)
    (hnew : ∀ t ∈ ts, t ∉ r.tree) (hA : ∀ t ∈ ts, ¬ A t)
    (hlone : r.tree = [] → ts ≠ [] → ∀ u, ¬ A u)
    (hrun : ts.foldlM enqueueFromWaitq r = .ok r') : Spread d A r' := by
  have hrule := foldlM_enqueueFromWaitq
    (I := fun r rest => Spread d A r ∧ (∀ t ∈ rest, ¬ A t) ∧
      (r.tree = [] → rest ≠ [] → ∀ u, ¬ A u))
    (fun r₁ r₂ t rest _ _ hI hjoin _ => ?_) ts hnodup hr hnew ⟨h, hA, hlone⟩ hrun
  · exact hrule.1
  · obtain ⟨hspread, hA, hlone⟩ := hI
    refine ⟨hspread.join (hA t (by simp)) hjoin fun hnil => hlone hnil (by simp),
      fun u hu => hA u (by simp [hu]), fun hnil => ?_⟩
    -- the queue is no longer empty
    have hmem : t ∈ r₂.tree := (hjoin.mem t).mpr (Or.inr rfl)
    rw [hnil] at hmem
    cases hmem

end RunQueue

namespace Sched

variable {s s' : Sched} {d : ℕ}

/-- The thread is a CFS thread that runs. -/
def RunsCfs (s : Sched) (t : Tid) : Prop := s.kind t = .cfs ∧ s.state t = .running

/-- The CFS threads that are not blocked are within `d` of each other, and the one that runs is
behind the queued ones. -/
abbrev Fair (d : ℕ) (s : Sched) : Prop := RunQueue.Spread d s.RunsCfs s.runq

/-- Only a switch makes a CFS thread run. -/
lemma Act.runsCfs_of {l : Label} (h : s.Inv) (ha : Act l s s')
    (hl : l ≠ .switches) {u : Tid} (hu : s'.RunsCfs u) : s.RunsCfs u := by
  have hkind : s.kind u = .cfs ∨ u ∉ s.spawned := by
    cases ha.cfsAct h with
    | same _ hkind _ _ => exact Or.inl ((hkind u).mp hu.1)
    | drops _ _ hkind _ _ => exact Or.inl (hkind ▸ hu.1)
    | joins _ _ _ hkind _ _ => exact Or.inl (hkind ▸ hu.1)
    | switches hsw _ => exact absurd hsw hl
    | spawns ht _ _ hkind _ _ =>
        refine ((hkind u).mp hu.1).imp_right ?_
        rintro rfl
        exact ht
  by_cases hst : ∃ t, l = .starts t
  · obtain ⟨t, rfl⟩ := hst
    cases ha with
    | starts ht _ _ _ _ _ _ hplace =>
        -- the thread that starts is the idle thread
        obtain ⟨hcfs, hrun⟩ := hu
        rw [kind_of_place hplace] at hcfs
        rw [state_of_place hplace] at hrun
        split at hcfs
        · cases hcfs
        · rename_i hut
          rw [if_neg hut] at hrun
          exact ⟨hcfs, hrun⟩
  · have hrun := ha.running_of h hl (fun t ht => hst ⟨t, ht⟩) hu.2
    refine ⟨hkind.resolve_right fun hfresh => ?_, hrun⟩
    rw [(h.fresh u hfresh).2] at hrun
    cases hrun

/-- **An action that is no switch keeps the CFS threads together**, unless it puts a thread into an
empty run queue beside a running one. -/
theorem Act.fair {l : Label} (h : s.Inv) (ha : Act l s s') (hl : l ≠ .switches)
    (hlone : s.runq.tree = [] → (∃ u, s.RunsCfs u) → ∀ t, s'.Awake t → s.Awake t)
    (hf : s.Fair d) : s'.Fair d := by
  refine RunQueue.Spread.mono (A := s.RunsCfs) ?_ fun u => ha.runsCfs_of h hl
  have hruns : ∀ u, s.RunsCfs u → s.Awake u := fun u hu => h.awake_iff.mpr (Or.inr hu)
  cases ha.cfsAct h with
  | same hrunq _ _ _ =>
      rw [hrunq]
      exact hf
  | drops _ hrunq _ _ _ =>
      have hsub : ∀ {u t : Tid}, u ∈ (s.runq.leave t).tree → u ∈ s.runq.tree :=
        List.mem_of_mem_erase
      rw [hrunq]
      exact ⟨fun t u ht hu => hf.near t u (ht.imp_left hsub) (hu.imp_left hsub),
        fun t ht u hu => hf.behind t ht u (hsub hu)⟩
  | @joins ts hnodup hts hrunq _ hawake _ =>
      refine hf.foldlM h.tidy.runq hnodup (fun t ht hmem => ?_) (fun t ht hrun => ?_)
        (fun hnil hne u hu => ?_) hrunq
      · exact (hts t ht).2 (h.awake_iff.mpr (Or.inl hmem))
      · exact (hts t ht).2 (hruns t hrun)
      · obtain ⟨t, ht⟩ := List.exists_mem_of_ne_nil ts hne
        exact (hts t ht).2 (hlone hnil ⟨u, hu⟩ t ((hawake t).mpr (Or.inr ht)))
  | switches hsw _ => exact absurd hsw hl
  | @spawns t priority ht _ hrunq _ hawake _ =>
      have hnot := h.not_awake_of_fresh ht
      have hmem : t ∉ s.runq.tree := fun hmem => hnot (h.awake_iff.mpr (Or.inl hmem))
      obtain ⟨hjoin, -⟩ := (RunQueue.enqueueThread_spec (h.tidy.runq.setEntity hmem
        ⟨0, 0, priority⟩) hmem).value hrunq
      have hrun : ¬ s.RunsCfs t := fun hu => hnot (hruns t hu)
      refine (hf.setEntity hmem hrun _).join hrun hjoin fun hnil u hu => ?_
      exact hnot (hlone hnil ⟨u, hu⟩ t ((hawake t).mpr (Or.inr rfl)))

/-- The charge of a switch to the thread that was current. -/
def chargeTo (s s' : Sched) : ℕ :=
  match s.current with
  | none => 0
  | some c => (s'.runq.entity c).vruntime - (s.runq.entity c).vruntime

/-- **A switch keeps the CFS threads within its charge.** -/
theorem Switches.fair {elapsed : ℕ} (h : s.Inv) (hsw : Switches elapsed s s') (hf : s.Fair d) :
    s'.Fair (max d (s.chargeTo s')) := by
  obtain ⟨c, hc, hle, hother, hsame⟩ := hsw.vruntime
  have hcharge : s.chargeTo s' = (s'.runq.entity c).vruntime - (s.runq.entity c).vruntime := by
    rw [chargeTo, hc]
  have hback : ∀ u, u ∈ s'.runq.tree ∨ s'.RunsCfs u → u ∈ s.runq.tree ∨ s.RunsCfs u :=
    fun u hu => h.awake_iff.mp ((hsw.awake_iff u).mp (hsw.inv.awake_iff.mpr hu))
  refine ⟨fun t u ht hu => ?_, fun t ht u hu => ?_⟩
  · have hnear := hf.near t u (hback t ht) (hback u hu)
    by_cases hruns : s.RunsCfs c
    · -- the charged thread was behind all queued ones
      have hqueued : ∀ v, v ∈ s'.runq.tree ∨ s'.RunsCfs v → v ≠ c → v ∈ s.runq.tree := by
        intro v hv hne
        refine (hback v hv).resolve_right fun hrun => hne ?_
        exact Option.some.inj ((h.running v hrun.2).symm.trans hc)
      by_cases htc : t = c
      · by_cases huc : u = c
        · rw [htc, huc]
          exact Nat.le_add_right ..
        · have hbehind := hf.behind c hruns u (hqueued u hu huc)
          rw [htc, hother u huc]
          omega
      · rw [hother t htc]
        by_cases huc : u = c
        · rw [huc] at hnear ⊢
          omega
        · rw [hother u huc]
          omega
    · rw [hsame hruns]
      omega
  · exact hsw.least h (hsw.inv.running t ht.2) (hsw.kind ▸ ht.1) u hu

/-- A step of a serialized run that is no switch. -/
lemma Path.fair {ls : List Label} (h : s.Inv) (hpath : Path ls s s')
    (hl : StepLabels ls) (hsw : ls ≠ [.switches])
    (hlone : s.runq.tree = [] → (∃ u, s.RunsCfs u) → ∀ t, s'.Awake t → s.Awake t)
    (hf : s.Fair d) : s'.Fair d := by
  have hsets : ∀ {s₁ s₂ : Sched} {u : Tid}, Act (.sets u) s₁ s₂ →
      (∀ t, s₂.Awake t ↔ s₁.Awake t) := by
    intro s₁ s₂ u ha t
    have hplace : s₂.place t = s₁.place t := congrFun ha.sets_place t
    exact and_congr (by rw [show s₂.kind t = s₁.kind t from congrArg Place.kind hplace])
      (by rw [show s₂.state t = s₁.state t from congrArg Place.state hplace])
  cases hl with
  | nil =>
      rw [hpath.eq_of_nil]
      exact hf
  | single l =>
      exact hpath.act.fair h (fun heq => hsw (by rw [heq])) hlone hf
  | boost t o elapsed u =>
      obtain ⟨s₁, ha, ha'⟩ := hpath.act_act
      have hf₁ := ha.fair h (by simp) (fun hnil hrun v hv =>
        hlone hnil hrun v ((hsets ha' v).mpr hv)) hf
      exact ha'.fair (ha.inv h) (by simp) (fun _ _ v hv => (hsets ha' v).mp hv) hf₁
  | restore u t o =>
      obtain ⟨s₁, ha, ha'⟩ := hpath.act_act
      have hf₁ := ha.fair h (by simp) (fun _ _ v hv => (hsets ha v).mp hv) hf
      have hrunq : s₁.runq = s.runq := by
        cases ha with
        | sets _ _ _ hset => exact hset.queues.runq
      refine ha'.fair (ha.inv h) (by simp) (fun hnil ⟨v, hv⟩ w hw => ?_) hf₁
      rw [hrunq] at hnil
      exact (hsets ha w).mpr (hlone hnil ⟨v, ha.runsCfs_of h (by simp) hv⟩ w hw)

end Sched

/-! ### Runs -/

/-- A kernel with the largest charge that `schedule` has made so far. -/
structure Fairness (α : Type) where
  kernel : Kernel α
  largest : ℕ

namespace Fairness

variable {c c' : Fairness α} {ev : Event α} {k' : Kernel α}

/-- The history after a step. -/
def after (c : Fairness α) (ev : Event α) (k' : Kernel α) : Fairness α where
  kernel := k'
  largest := if ev.isSchedule then max c.largest (c.kernel.sched.chargeTo k'.sched) else c.largest

/-- A CFS thread joins the empty run queue while another one is current and not blocked. -/
def JoinsBeside (k k' : Kernel α) : Prop :=
  k.sched.runq.tree = [] ∧ (∃ d, k.sched.current = some d ∧ k.sched.Awake d) ∧
    ∃ t, ¬ k.sched.Awake t ∧ k'.sched.Awake t

/-- One step of a serialized run. -/
def Step (c c' : Fairness α) : Prop :=
  ∃ ev k' reply, c.kernel.Enabled ev ∧ (c.kernel.sched.pendsv = true → ev.isSchedule = true) ∧
    c.kernel.exec ev = .ok (k', reply) ∧ c' = c.after ev k'

structure Initial (c : Fairness α) : Prop where
  kernel : c.kernel.Initial
  largest : c.largest = 0

/-- The states of the serialized runs with their history. -/
abbrev Reachable (c : Fairness α) : Prop := Runs.Reach Initial Step c

/-- The states of the serialized runs in which no thread joins an empty run queue beside a CFS
thread that is current. -/
abbrev AlignedReachable (c : Fairness α) : Prop :=
  Runs.Reach Initial (fun c c' => Step c c' ∧ ¬ JoinsBeside c.kernel c'.kernel) c

structure Inv (c : Fairness α) : Prop where
  kernel : c.kernel.Inv
  fair : c.kernel.sched.Fair c.largest

lemma Initial.inv (h : c.Initial) : c.Inv := by
  obtain ⟨layout, periodTicks, execTicks, hboot⟩ := h.kernel.boot
  obtain ⟨hinv, hcur, -, -, -, -, -, hrunq⟩ := Sched.boot_base hboot
  have hnone : ∀ t, ¬ c.kernel.sched.RunsCfs t := fun t ht => by
    have hc := hinv.running t ht.2
    rw [hcur] at hc
    cases hc
  refine ⟨h.kernel.inv, fun t u ht _ => ?_, fun t ht => absurd ht (hnone t)⟩
  rw [hrunq] at ht
  exact absurd (ht.resolve_left (by simp)) (hnone t)

/-- **A step keeps the CFS threads together**, unless a thread joins an empty run queue beside a
running one. -/
theorem Inv.step (h : c.Inv) (hs : Step c c') (hjoin : ¬ JoinsBeside c.kernel c'.kernel) :
    c'.Inv := by
  obtain ⟨ev, k', reply, hen, -, hrun, rfl⟩ := hs
  refine ⟨(h.kernel.does hen hrun).inv h.kernel, ?_⟩
  by_cases hsw : ev.isSchedule = true
  · obtain ⟨port, rfl⟩ := Event.isSchedule_iff.mp hsw
    exact (h.kernel.switches hen hrun).fair h.kernel.sched h.fair
  · obtain ⟨ls, hpath, hl⟩ := (h.kernel.does hen hrun).path
    have hlargest : (c.after ev k').largest = c.largest := if_neg hsw
    rw [hlargest]
    refine hpath.fair h.kernel.sched (Kernel.stepLabels_of hl) (fun heq => ?_)
      (fun hnil ⟨u, hu⟩ t ht => ?_) h.fair
    · exact hsw (Kernel.isSchedule_of_switches (heq ▸ hl))
    · by_contra hnot
      exact hjoin ⟨hnil, ⟨u, h.kernel.sched.running u hu.2,
        h.kernel.sched.awake_iff.mpr (Or.inr hu)⟩, t, hnot, ht⟩

lemma reachable_inv (h : c.AlignedReachable) : c.Inv :=
  Runs.Reach.invariant (fun _ hi => hi.inv) (fun _ _ hc hs => hc.step hs.1 hs.2) h

/-- **Bounded unfairness.**  In a serialized run in which no CFS thread joins the empty run queue
while another CFS thread is current and not blocked, the virtual runtimes of any two CFS threads
that are not blocked differ by at most the largest charge made so far. -/
theorem reachable_fair (h : c.AlignedReachable) {t u : Tid} (ht : c.kernel.sched.Awake t)
    (hu : c.kernel.sched.Awake u) :
    (c.kernel.sched.runq.entity t).vruntime ≤
      (c.kernel.sched.runq.entity u).vruntime + c.largest := by
  have hinv := reachable_inv h
  exact hinv.fair.near t u (hinv.kernel.sched.awake_iff.mp ht) (hinv.kernel.sched.awake_iff.mp hu)

/-! ### Executable runs -/

/-- The state after a step of a serialized run. -/
def next (c : Fairness α) (ev : Event α) : Option (Fairness α) :=
  if c.kernel.sched.pendsv = true → ev.isSchedule = true then (c.kernel.next ev).map (c.after ev)
  else none

/-- The same for a state in which no thread can join an empty run queue beside a running one. -/
def alignedNext (c : Fairness α) (ev : Event α) : Option (Fairness α) :=
  if c.kernel.sched.runq.tree ≠ [] ∨ ∀ d ∈ c.kernel.sched.current, ¬ c.kernel.sched.Awake d then
    c.next ev
  else none

lemma next_step (h : c.next ev = some c') : Step c c' := by
  unfold next at h
  split at h
  · rename_i hfirst
    obtain ⟨k', hk', rfl⟩ := Option.map_eq_some_iff.mp h
    obtain ⟨hen, reply, hrun⟩ := Kernel.next_eq_some.mp hk'
    exact ⟨ev, k', reply, hen, hfirst, hrun, rfl⟩
  · cases h

lemma alignedNext_step (h : c.alignedNext ev = some c') :
    Step c c' ∧ ¬ JoinsBeside c.kernel c'.kernel := by
  unfold alignedNext at h
  split at h
  · rename_i hcond
    refine ⟨next_step h, fun ⟨hnil, ⟨d, hd, hawake⟩, _⟩ => ?_⟩
    rcases hcond with hne | hnone
    · exact hne hnil
    · exact hnone d hd hawake
  · cases h

/-- The run of given steps from boot. -/
def trial (next : Fairness ℕ → Event ℕ → Option (Fairness ℕ)) (evs : List (Event ℕ)) :
    Option (Fairness ℕ) := do
  let k ← Kernel.trial Kernel.next []
  evs.foldlM next ⟨k, 0⟩

lemma trial_reach {next : Fairness ℕ → Event ℕ → Option (Fairness ℕ)}
    {step : Fairness ℕ → Fairness ℕ → Prop} (hnext : ∀ c ev c', next c ev = some c' → step c c')
    {evs : List (Event ℕ)} {c : Fairness ℕ} (h : trial next evs = some c) :
    Runs.Reach Initial step c := by
  simp only [trial, Kernel.trial, List.foldlM_nil, Option.bind_eq_bind,
    Option.bind_eq_some_iff] at h
  obtain ⟨k, ⟨k₀, hboot, hk⟩, hrun⟩ := h
  obtain rfl := Option.some.inj hk
  exact Runs.Reach.foldlM hnext (.start ⟨Kernel.booted_initial hboot, rfl⟩) hrun

/-- A thread that has run alone for three intervals creates a second one. -/
def staleTrial : Option (Fairness ℕ) := trial next
  [.spawnCfs 1 10, .start 0, .tick ⟨some 49, some 0⟩ 8, .schedule ⟨some 49, some 0⟩,
    .tick ⟨some 49, some 0⟩ 8, .schedule ⟨some 49, some 0⟩,
    .tick ⟨some 49, some 0⟩ 8, .schedule ⟨some 49, some 0⟩,
    .tick ⟨some 49, some 0⟩ 8, .schedule ⟨some 49, some 0⟩,
    .tick ⟨some 49, some 0⟩ 8, .schedule ⟨some 49, some 0⟩, .spawnCfs 2 10]

/-- The new thread starts with virtual runtime 0, two charges behind. -/
theorem spawn_falls_behind : ∃ c, staleTrial = some c ∧ c.Reachable ∧
    c.kernel.sched.Awake 1 ∧ c.kernel.sched.Awake 2 ∧ c.largest = 50 ∧
    (c.kernel.sched.runq.entity 1).vruntime = 100 ∧
    (c.kernel.sched.runq.entity 2).vruntime = 0 := by
  have htest : staleTrial.any (fun c => decide (c.kernel.sched.Awake 1) &&
      decide (c.kernel.sched.Awake 2) && c.largest == 50 &&
      (c.kernel.sched.runq.entity 1).vruntime == 100 &&
      (c.kernel.sched.runq.entity 2).vruntime == 0) = true := by decide +kernel
  obtain ⟨c, hc, htest⟩ := (Option.any_eq_true ..).mp htest
  simp only [Bool.and_eq_true, beq_iff_eq, decide_eq_true_eq] at htest
  obtain ⟨⟨⟨⟨h₁, h₂⟩, hlargest⟩, hv₁⟩, hv₂⟩ := htest
  exact ⟨c, hc, trial_reach (fun _ _ _ => next_step) hc, h₁, h₂, hlargest, hv₁, hv₂⟩

/-- Two threads that take turns. -/
def turnsTrial : Option (Fairness ℕ) := trial alignedNext
  [.spawnCfs 1 10, .spawnCfs 2 30, .start 0, .tick ⟨some 49, some 0⟩ 8,
    .schedule ⟨some 49, some 0⟩, .tick ⟨some 49, some 0⟩ 8, .schedule ⟨some 49, some 0⟩,
    .tick ⟨some 49, some 0⟩ 8, .schedule ⟨some 49, some 0⟩]

theorem reachable_fair_turns : ∃ c, turnsTrial = some c ∧ c.kernel.sched.Awake 1 ∧
    c.kernel.sched.Awake 2 ∧ (c.kernel.sched.runq.entity 2).vruntime ≤
      (c.kernel.sched.runq.entity 1).vruntime + c.largest := by
  have htest : turnsTrial.any (fun c => decide (c.kernel.sched.Awake 1) &&
      decide (c.kernel.sched.Awake 2)) = true := by decide +kernel
  obtain ⟨c, hc, htest⟩ := (Option.any_eq_true ..).mp htest
  simp only [Bool.and_eq_true, decide_eq_true_eq] at htest
  have hreach := trial_reach (fun _ _ _ => alignedNext_step) hc
  exact ⟨c, hc, htest.1, htest.2, reachable_fair hreach htest.2 htest.1⟩

end Fairness

end Rtsched

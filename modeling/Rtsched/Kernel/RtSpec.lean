import Rtsched.Kernel.CfsSpec
import Rtsched.Kernel.Record

/-!
What the actions do to the timer of an RT thread.

* `Sched.RtChange`: the cases; `Sched.Act.rtChange`: **every action that sets no deadline is one of
  them**.
-/

namespace Rtsched

open Outcome

namespace Sched

variable {s s' : Sched} {t u : Tid} {l : Label}

/-- What an action does to the timer of an RT thread: nothing; it is re-armed or released because it
has expired; the thread sets its runtime, yields, blocks, or becomes ready; or the thread is new. -/
inductive RtChange (l : Label) (t : Tid) (s s' : Sched) : Prop
  | stays (h : KTimers.Same s.ktimers s'.ktimers (.rt t))
      (hstate : (s.state t).isBlocked = true → s'.state t = s.state t)
  | renewed (h : KTimers.Renewed s.ktimers s'.ktimers (.rt t)) (hlinked : s.ktimers.Linked (.rt t))
      (hexp : l.isTick = true → (s'.ktimers.entity (.rt t)).expireAt =
        satAdd64 s'.ktimers.nowTicks (s.ktimers.entity (.rt t)).relativeDeadlineTicks)
  | times {startTime : ℕ} (hl : l = .times t startTime)
      (heq : s' = { s with ktimers := s.ktimers.setRuntime t startTime })
  | yields {elapsed : ℕ} (hl : l = .yields t elapsed) (hin : .rt t ∈ s'.ktimers.inactive)
      (hexp : (s'.ktimers.entity (.rt t)).expireAt = s.ktimers.yieldedExpireAt t elapsed)
      (hrun : s'.ktimers.runtime t = 0)
  | blocks (hl : l.isTick = false) (hact : s.Acting t) (hblocked : (s'.state t).isBlocked = true)
      (hexp : (s'.ktimers.entity (.rt t)).expireAt = s.ktimers.yieldedExpireAt t l.elapsed)
      (hrun : s'.ktimers.runtime t = satAdd32 (s.ktimers.runtime t) l.elapsed)
  | wakes (hl : l.isTick = false) (hsusp : s.state t = .suspended) (hready : s'.state t = .ready)
      (hact : .rt t ∈ s'.ktimers.active)
      (hkept : s.ktimers.nowTicks < (s.ktimers.entity (.rt t)).expireAt →
        (s'.ktimers.entity (.rt t)).expireAt = (s.ktimers.entity (.rt t)).expireAt ∧
          s'.ktimers.runtime t = s.ktimers.runtime t)
  | timed (hl : l.isTick = true) (hwait : s.state t = .waiting) (hready : s'.state t = .ready)
      (hact : .rt t ∈ s'.ktimers.active)
      (hset : satAdd64 s.ktimers.nowTicks l.elapsed <
          (s.advanced l.elapsed).timedExpireAt t l.elapsed →
        (s'.ktimers.entity (.rt t)).expireAt = (s.advanced l.elapsed).timedExpireAt t l.elapsed ∧
          s'.ktimers.runtime t = satAdd32 (s.ktimers.runtime t) l.elapsed)
  | spawned (ht : t ∉ s.spawned) (hact : .rt t ∈ s'.ktimers.active)

/-- A timer that is not the subject of an action. -/
lemma RtChange.of_frame {K : Timer → Prop} (hl : l.isTick = false)
    (hf : KTimers.Frame K s.ktimers s'.ktimers) (hK : ¬ K (.rt t))
    (hstate : (s.state t).isBlocked = true → s'.state t = s.state t) : RtChange l t s s' := by
  rcases hf.rearmed _ hK with hsame | hnew
  · exact .stays hsame hstate
  · exact .renewed hnew ((hf.linked _ hK).mp (Or.inl hnew.active)) fun ht =>
      absurd (hl.symm.trans ht) (by decide)

/-- The timer of a thread that gives up the processor is its own. -/
lemma eq_of_threadSchedulerKtimer (h : s.threadSchedulerKtimer u = some (.rt t)) : t = u := by
  unfold threadSchedulerKtimer at h
  split at h
  · cases h
  · exact (Timer.rt.inj (Option.some.inj h)).symm
  · cases h

/-- A thread that blocks, or another one. -/
lemma Blocks.rtChange {p : Place} (hact : s.Acting u) (hl : l.isTick = false)
    (hb : Blocks u p l.elapsed s s') (hp : p.kind = s.kind u) (hpb : p.state.isBlocked = true)
    (hrt : s'.kind t = .rt) : RtChange l t s s'.requestContextSwitch := by
  by_cases htu : t = u
  · subst htu
    have hkind : s.kind t = .rt := by
      have hkind' : s'.kind t = p.kind := hb.moves.kind_self
      rw [← hp, ← hkind', hrt]
    have hstate : s'.state t = p.state := hb.moves.state_self
    exact .blocks hl hact ((congrArg _ hstate).trans hpb) (hb.expireAt hkind) (hb.runtime hkind)
  · refine .of_frame hl hb.frame ?_ fun _ => ?_
    · rintro (hc | hc)
      · cases hc
      · exact htu (eq_of_threadSchedulerKtimer hc)
    · exact congrArg Place.state (hb.moves.other htu)

/-- The time advances before the timers are dispatched. -/
lemma same_advanced (s : Sched) (elapsed : ℕ) (k : Timer) :
    KTimers.Same s.ktimers (s.advanced elapsed).ktimers k :=
  ⟨rfl, by cases k <;> rfl, Iff.rfl, Iff.rfl⟩

lemma Inv.now_le_advanced (h : s.Inv) (elapsed : ℕ) :
    s.ktimers.nowTicks ≤ (s.advanced elapsed).ktimers.nowTicks :=
  le_min (Nat.le_add_right _ _) h.tidy.ktimers.now_le

/-- A thread that a tick wakes, or another one. -/
lemma Woken.rtChange {elapsed : ℕ} (h : s.Inv) (hw : Woken elapsed (s.advanced elapsed) s')
    (hrt : s'.kind t = .rt) : RtChange (.ticks elapsed) t s s'.requestContextSwitch := by
  have hkind : s.kind t = .rt := (hw.kind_eq t).symm.trans hrt
  by_cases ht : s.state t = .waiting
  · have hwt := hw.woken t ht
    by_cases ht' : s'.state t = .waiting
    · exact .stays ((same_advanced s elapsed _).trans (hwt.kept ht')) fun _ => ht'.trans ht.symm
    · have hplace := hwt.place.resolve_left fun hsame =>
        ht' ((congrArg Place.state hsame).trans ht)
      obtain ⟨hact, hset⟩ := hwt.rt hkind ht'
      exact .timed rfl ht (congrArg Place.state hplace) hact hset.of_lt
  · have hnot : ¬ (s.advanced elapsed).tickTimers (.rt t) := by
      rintro (hc | hc | ⟨v, hv, hc⟩)
      · cases hc
      · cases hc
      · exact ht (Timer.rt.inj hv ▸ hc)
    rcases hw.frame.rearmed _ hnot with hsame | hnew
    · exact .stays ((same_advanced s elapsed _).trans hsame) fun _ =>
        congrArg Place.state (hw.other t ht)
    · -- a tick re-arms a timer at the time it dispatches
      obtain ⟨n, hle, hn, hexp⟩ := hnew.expireAt
      rw [hw.nowTicks] at hn
      obtain rfl := le_antisymm hn hle
      refine .renewed (.of_same (same_advanced s elapsed _) hnew (h.now_le_advanced elapsed))
        ((hw.frame.linked _ hnot).mp (Or.inl hnew.active)) fun _ => hexp.trans ?_
      rw [← hw.nowTicks]
      rfl

/-- **What an action does to the timer of an RT thread.** -/
theorem Act.rtChange (h : s.Inv) (ha : Act l s s') (hsets : l.setsDeadline = false)
    (hrt : s'.kind t = .rt) : RtChange l t s s' := by
  cases ha with
  | @yields _ s₁ u elapsed hact hy =>
      by_cases htu : t = u
      · subst htu
        have hkind : s₁.kind t = s.kind t := hy.moves.kind_self
        obtain ⟨hin, hexp, hrun⟩ := hy.rt (hkind.symm.trans hrt)
        exact .yields rfl hin hexp hrun
      · exact .of_frame rfl hy.frame (fun hc => htu (eq_of_threadSchedulerKtimer hc)) fun _ =>
          congrArg Place.state (hy.moves.other htu)
  | sleeps hact hx _ hb => exact hb.rtChange hact rfl rfl hx hrt
  | blocks hact hb _ => exact hb.rtChange hact rfl rfl rfl hrt
  | @wakes _ s₁ u o ho hr _ =>
      by_cases htu : t = u
      · subst htu
        have hkind : s₁.kind t = s.kind t := hr.moves.kind_self
        obtain ⟨hact, hkept⟩ := hr.rt (hkind.symm.trans hrt)
        refine .wakes rfl ((h.ok t).waits o ho).1 hr.moves.state_self hact fun hlt => hkept ?_
        simpa [KTimers.expired, KTimerEntity.isExpiredAt] using hlt
      · refine .of_frame rfl hr.frame ?_ fun _ => congrArg Place.state (hr.moves.other htu)
        rintro (hc | ⟨-, hc⟩)
        · cases hc
        · exact htu (Timer.rt.inj hc)
  | @times _ u startTime _ _ _ =>
      by_cases htu : t = u
      · subst htu
        exact .times rfl rfl
      · refine .stays (KTimers.edits_setRuntime.same fun hc => htu (Timer.rt.inj hc)) fun _ => rfl
  | sets _ _ _ _ => cases hsets
  | ticks hw _ _ _ _ _ => exact hw.rtChange h hrt
  | switches hsw =>
      refine .stays (by rw [hsw.ktimers]; exact .refl _ _) fun hb => ?_
      exact (hsw.blocked t).resolve_right fun hc => absurd (hc.2.symm.trans hb) (by decide)
  | @spawns _ _ u kind hu hsp hk _ _ =>
      have hstate : t ≠ u → s'.state t = s.state t :=
        fun htu => congrArg Place.state (hsp.other htu)
      rcases hk with heq | ⟨timing, -, hset, hact⟩
      · refine .stays (by rw [heq]; exact .refl _ _) fun hb => hstate ?_
        rintro rfl
        rw [(h.fresh t hu).2] at hb
        cases hb
      · by_cases htu : t = u
        · subst htu
          exact .spawned hu hact
        · have hne : Timer.rt t ≠ .rt u := fun hc => htu (Timer.rt.inj hc)
          have hsame := initRtThread_same s u timing hne
          rcases hset.frame.rearmed _ hne with hsame' | hnew
          · exact .stays (hsame.trans hsame') fun _ => hstate htu
          · refine .renewed (.of_same hsame hnew le_rfl) ?_ fun ht => by cases ht
            exact hsame.linked.mp ((hset.frame.linked _ hne).mp (Or.inl hnew.active))
  | @starts _ _ u hu _ hk _ _ _ _ hplace _ _ _ =>
      refine .stays (by rw [hk]; exact .refl _ _) fun hb => ?_
      rw [state_of_place hplace, if_neg]
      rintro rfl
      rw [(h.fresh t hu).2] at hb
      cases hb

/-- A thread that yields is the current one. -/
lemma Act.acting_of_yields {elapsed : ℕ} (ha : Act (.yields t elapsed) s s') : s.Acting t := by
  cases ha with
  | yields hact _ => exact hact

/-- No action changes the kind of a thread. -/
lemma Act.kind_eq (ha : Act l s s') (ht : t ∈ s.spawned) : s'.kind t = s.kind t := by
  have hne : ∀ {u : Tid}, u ∉ s.spawned → t ≠ u := by
    rintro u hu rfl
    exact hu ht
  cases ha with
  | yields _ hy => exact congrFun (kind_eq_of_place hy.moves.place rfl) t
  | sleeps _ _ _ hb => exact congrFun (kind_eq_of_place hb.moves.place rfl) t
  | blocks _ hb _ => exact congrFun (kind_eq_of_place hb.moves.place rfl) t
  | times _ _ _ => rfl
  | wakes _ hr _ => exact congrFun (kind_eq_of_place hr.moves.place rfl) t
  | sets hm _ _ _ => exact congrFun (kind_eq_of_place hm.place rfl) t
  | ticks hw _ _ _ _ _ => exact hw.kind_eq t
  | switches hsw => rw [hsw.kind]
  | spawns hu hsp _ _ _ => exact congrArg Place.kind (hsp.other (hne hu))
  | starts hu _ _ _ _ _ _ hplace _ _ _ => rw [kind_of_place hplace, if_neg (hne hu)]

lemma Path.kind_eq {ls : List Label} (hp : Path ls s s') (ht : t ∈ s.spawned) :
    s'.kind t = s.kind t := by
  induction hp with
  | nil => rfl
  | cons ha _ ih => exact (ih (ha.spawned_subset ht)).trans (ha.kind_eq ht)

/-- A linked timer belongs to an RT thread that can run. -/
lemma Inv.of_linked (h : s.Inv) (hl : s.ktimers.Linked (.rt t)) :
    s.kind t = .rt ∧ (s.state t).isBlocked = false ∧ t ∈ s.spawned := by
  obtain ⟨hkind, hstate⟩ := (h.ok t).timer.mp hl
  refine ⟨hkind, hstate, ?_⟩
  by_contra hnot
  exact absurd (hkind.symm.trans (h.fresh t hnot).1) (by decide)

namespace RtChange

/-- A timer that is linked before and active after an action has been left alone, or re-armed, or
its thread has set its runtime. -/
lemma same_or_renewed (h : s.Inv) (h' : s'.Inv) (hc : RtChange l t s s')
    (hl : s.ktimers.Linked (.rt t)) (hact : .rt t ∈ s'.ktimers.active) :
    KTimers.Same s.ktimers s'.ktimers (.rt t) ∨ (KTimers.Renewed s.ktimers s'.ktimers (.rt t) ∧
      (l.isTick = true → (s'.ktimers.entity (.rt t)).expireAt =
        satAdd64 s'.ktimers.nowTicks (s.ktimers.entity (.rt t)).relativeDeadlineTicks)) ∨
      ∃ startTime, l = .times t startTime ∧
        s' = { s with ktimers := s.ktimers.setRuntime t startTime } := by
  obtain ⟨-, hstate, hsp⟩ := h.of_linked hl
  cases hc with
  | stays hsame _ => exact Or.inl hsame
  | renewed hnew _ hexp => exact Or.inr (Or.inl ⟨hnew, hexp⟩)
  | times hl heq => exact Or.inr (Or.inr ⟨_, hl, heq⟩)
  | yields _ hin _ _ => exact absurd hin (h'.tidy.ktimers.notMem_inactive hact)
  | blocks _ _ hblocked _ _ =>
      exact absurd ((h'.of_linked (Or.inl hact)).2.1.symm.trans hblocked) (by decide)
  | wakes _ hsusp _ _ _ =>
      rw [hsusp] at hstate
      cases hstate
  | timed _ hwait _ _ _ =>
      rw [hwait] at hstate
      cases hstate
  | spawned ht _ => exact absurd hsp ht

/-- A timer that is inactive after an action has been left alone, or its thread has yielded, or set
its runtime. -/
lemma same_or_yields (h' : s'.Inv) (hc : RtChange l t s s') (hin : .rt t ∈ s'.ktimers.inactive) :
    KTimers.Same s.ktimers s'.ktimers (.rt t) ∨ s'.ktimers.runtime t = 0 ∨
      ∃ startTime, l = .times t startTime ∧
        s' = { s with ktimers := s.ktimers.setRuntime t startTime } := by
  have hnot : .rt t ∉ s'.ktimers.active := fun hact => h'.tidy.ktimers.notMem_inactive hact hin
  cases hc with
  | stays hsame _ => exact Or.inl hsame
  | renewed hnew _ _ => exact absurd hnew.active hnot
  | times hl heq => exact Or.inr (Or.inr ⟨_, hl, heq⟩)
  | yields _ _ _ hrun => exact Or.inr (Or.inl hrun)
  | blocks _ _ hblocked _ _ =>
      exact absurd ((h'.of_linked (Or.inr hin)).2.1.symm.trans hblocked) (by decide)
  | wakes _ _ _ hact _ => exact absurd hact hnot
  | timed _ _ _ hact _ => exact absurd hact hnot
  | spawned _ hact => exact absurd hact hnot

/-- What becomes of the timer of an RT thread that is blocked by an action. -/
lemma of_blocked (h : s.Inv) (h' : s'.Inv) (hc : RtChange l t s s') (hkind : s.kind t = .rt)
    (hb : (s.state t).isBlocked = false) (hb' : (s'.state t).isBlocked = true) :
    (s'.ktimers.entity (.rt t)).expireAt = s.ktimers.yieldedExpireAt t l.elapsed ∧
      s'.ktimers.runtime t = satAdd32 (s.ktimers.runtime t) l.elapsed := by
  have hl : s.ktimers.Linked (.rt t) := (h.ok t).timer.mpr ⟨hkind, hb⟩
  have hnot : ¬ s'.ktimers.Linked (.rt t) := fun hl' =>
    absurd ((h'.of_linked hl').2.1.symm.trans hb') (by decide)
  cases hc with
  | stays hsame _ => exact absurd (hsame.linked.mpr hl) hnot
  | renewed hnew _ _ => exact absurd (Or.inl hnew.active) hnot
  | times _ heq => exact absurd (heq ▸ hl) hnot
  | yields _ hin _ _ => exact absurd (Or.inr hin) hnot
  | blocks _ _ _ hexp hrun => exact ⟨hexp, hrun⟩
  | wakes _ _ _ hact _ => exact absurd (Or.inl hact) hnot
  | timed _ _ _ hact _ => exact absurd (Or.inl hact) hnot
  | spawned _ hact => exact absurd (Or.inl hact) hnot

end RtChange

end Sched

end Rtsched

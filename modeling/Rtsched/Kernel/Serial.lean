import Rtsched.Kernel.Reach

/-!
Serialized runs: every step that requests a switch is followed at once by `schedule`.

* `Sched.Prompt`: the current thread runs whenever no switch is pending; `Sched.Serial`: besides, no
  thread sleeps for ever.
* `Kernel.prompt_states`: **the states of the threads**.  No step makes a forbidden transition, and
  after every switch the current thread is the only one that runs.
* `Sched.Indexed`: the indices that hold a thread are those its state names.
* `Kernel.serial_indexed`: **after every switch of a serialized run all indices are right**, and no
  later step fails on a link.
-/

namespace Rtsched

open Outcome

namespace Sched

variable {s s' : Sched}

/-- The current thread of a serialized run is never ready, and it runs unless a switch is
pending. -/
structure Prompt (s : Sched) : Prop where
  current : ∀ c, s.current = some c → s.state c ≠ .ready
  running : s.pendsv = false → ∀ c, s.current = some c → s.state c = .running

/-- Besides, a suspended thread waits for an event. -/
structure Serial (s : Sched) : Prop extends Prompt s where
  event : ∀ t, s.state t = .suspended → (s.waitq.entity t).waitevt ≠ none

/-- A time at which no sleep can be without end. -/
def Early (s : Sched) : Prop := s.ktimers.nowTicks < u64Max - 2 ^ 32

instance : DecidablePred Early := fun _ => Nat.decLt _ _

/-- A step that moves one thread, which is not the current one or does not become ready. -/
lemma Prompt.of_place (hs : s.Prompt) {t : Tid} {p : Place}
    (hplace : s'.place = Function.update s.place t p) (hcur : s'.current = s.current)
    (hpend : s'.pendsv = false → s.pendsv = false ∧ (s.current = some t → p.state = .running))
    (hready : p.state = .ready → s.current ≠ some t) : s'.Prompt := by
  refine ⟨fun c hc => ?_, fun hno c hc => ?_⟩
  · rw [hcur] at hc
    rw [state_of_place hplace]
    split
    · rename_i hct
      subst hct
      exact fun hp => hready hp hc
    · exact hs.current c hc
  · obtain ⟨hno, hrun⟩ := hpend hno
    rw [hcur] at hc
    rw [state_of_place hplace]
    split
    · rename_i hct
      subst hct
      exact hrun hc
    · exact hs.running hno c hc

/-- A tick leaves the running thread alone. -/
lemma Woken.prompt {elapsed : ℕ} (hs : s.Prompt) (hno : s.pendsv = false)
    (hw : Woken elapsed (s.advanced elapsed) s') : s'.requestContextSwitch.Prompt := by
  have hcur : s'.current = s.current := hw.control.current
  refine ⟨fun c hc => ?_, fun hno => ?_⟩
  · have hrun : s.state c = .running := hs.running hno c (hcur.symm.trans hc)
    have hsame : s'.state c = s.state c := by
      refine congrArg Place.state (hw.other c ?_)
      rw [show (s.advanced elapsed).state c = _ from hrun]
      decide
    change s'.state c ≠ .ready
    rw [hsame, hrun]
    decide
  · cases hno

/-- A switch runs the thread it makes current. -/
lemma Switches.running {elapsed : ℕ} (hs : s.Prompt) (hsw : Switches elapsed s s') (c : Tid)
    (hc : s'.current = some c) : s'.state c = .running := by
  obtain ⟨n, hn, hrun, -⟩ := hsw.current
  rw [hn] at hc
  obtain rfl := Option.some.inj hc
  refine hrun.resolve_right ?_
  rintro ⟨c, hc, -, hready⟩
  exact hs.current c hc hready

lemma Switches.prompt {elapsed : ℕ} (hs : s.Prompt) (hsw : Switches elapsed s s') :
    s'.Prompt := by
  refine ⟨fun c hc => ?_, fun _ => hsw.running hs⟩
  rw [hsw.running hs c hc]
  decide

/-- The idle thread runs when it has been created. -/
lemma Act.running_starts {t : Tid} (ha : Act (.starts t) s s') (c : Tid)
    (hc : s'.current = some c) : s'.state c = .running := by
  cases ha with
  | starts _ _ _ _ hc' _ _ hplace =>
      rw [hc'] at hc
      obtain rfl := Option.some.inj hc
      rw [state_of_place hplace, if_pos rfl]
      rfl

/-- **An action of a serialized run keeps the current thread running.** -/
theorem Act.prompt {l : Label} (h : s.Inv) (hs : s.Prompt) (ha : Act l s s')
    (hpend : (∃ t, l = .sets t) ∨ l = .switches ∨ s.pendsv = false) : s'.Prompt := by
  have hno : (∀ t, l ≠ .sets t) → l ≠ .switches → s.pendsv = false := by
    intro h₁ h₂
    rcases hpend with ⟨t, ht⟩ | hl | hno
    · exact absurd ht (h₁ t)
    · exact absurd hl h₂
    · exact hno
  cases ha with
  | @yields _ s₁ t _ ha hy =>
      refine hs.of_place (t := t) hy.moves.place hy.moves.control.current (fun hno => ?_)
        fun hready => ?_
      · cases hno
      · exact absurd hready (hs.current t ha.current)
  | @sleeps _ s₁ t _ x ha hx hlong hb =>
      refine hs.of_place (t := t) hb.moves.place hb.moves.control.current (fun hno => ?_)
        fun hready => ?_
      · cases hno
      · rw [show x = .ready from hready] at hx
        cases hx
  | @blocks _ s₁ t _ o ha hb =>
      refine hs.of_place (t := t) hb.moves.place hb.moves.control.current (fun hno => ?_)
        fun hready => ?_
      · cases hno
      · cases hready
  | times _ _ _ => exact ⟨hs.current, fun _ => hs.running (hno nofun nofun)⟩
  | @wakes _ s₁ t o ht hr =>
      refine hs.of_place (t := t) hr.moves.place hr.moves.control.current (fun hno => ?_)
        fun _ hc => ?_
      · cases hno
      · have hsusp : s.state t = .suspended := ((h.ok t).waits o ht).1
        rw [hs.running (hno (by simp) (by simp)) t hc] at hsusp
        cases hsusp
  | @sets _ _ t hm _ _ =>
      refine hs.of_place (t := t) hm.place hm.control.current (fun hno => ?_)
        fun hready hc => hs.current t hc hready
      rw [hm.control.pendsv] at hno
      exact ⟨hno, hs.running hno t⟩
  | ticks hw _ _ _ => exact hw.prompt hs (hno (by simp) (by simp))
  | switches hsw => exact hsw.prompt hs
  | @spawns _ _ t kind ht hsp _ =>
      have hne : s.current ≠ some t := fun hc => ht (h.spawned t hc)
      refine hs.of_place (t := t) hsp.place hsp.current (fun hno => ?_) fun _ => hne
      rw [hsp.pendsv] at hno
      exact ⟨hno, fun hc => absurd hc hne⟩
  | @starts _ _ t ht hinv hk hc hc' hp hsp hplace hkeys htree hrunq =>
      have hrun := (Act.starts ht hinv hk hc hc' hp hsp hplace hkeys htree hrunq).running_starts
      refine ⟨fun c hcur => ?_, fun _ => hrun⟩
      rw [hrun c hcur]
      decide

/-- Only a switch runs a thread, apart from the start of the idle thread. -/
lemma Act.running_of {l : Label} (h : s.Inv) (ha : Act l s s') (hsw : l ≠ .switches)
    (hst : ∀ t, l ≠ .starts t) {u : Tid} (hu : s'.state u = .running) : s.state u = .running := by
  cases ha with
  | yields _ hy => exact (hy.moves.keeps_self h.toBase hy.next).running u hu
  | @sleeps _ s₁ t _ x _ hx _ hb =>
      replace hu : s₁.state u = .running := hu
      rw [state_of_place hb.moves.place] at hu
      split at hu
      · rw [show x = .running from hu] at hx
        cases hx
      · exact hu
  | @blocks _ s₁ t _ o _ hb =>
      replace hu : s₁.state u = .running := hu
      rw [state_of_place hb.moves.place] at hu
      split at hu
      · cases hu
      · exact hu
  | times _ _ _ => exact hu
  | wakes ht hr =>
      have hact := Act.wakes ht hr ‹_›
      rw [hact.state_wakes] at hu
      split at hu
      · cases hu
      · exact hu
  | sets hm _ hnext => exact (hm.keeps_self h.toBase hnext).running u hu
  | ticks hw hcfs hwait hnext =>
      exact (hw.keeps (advanced_base h.toBase _) hcfs hwait hnext).running u hu
  | switches _ => exact absurd rfl hsw
  | spawns _ hsp _ =>
      rw [state_of_place hsp.place] at hu
      split at hu
      · cases hu
      · exact hu
  | @starts _ _ t => exact absurd rfl (hst t)

/-- A blocked thread does not run at once. -/
lemma Act.ne_running {l : Label} (h : s.Inv) (ha : Act l s s') {u : Tid}
    (hu : (s.state u).isBlocked = true) : s'.state u ≠ .running := by
  intro hrun
  by_cases hsw : l = .switches
  · subst hsw
    cases ha with
    | switches hsw =>
        rcases hsw.blocked u with heq | ⟨-, hb⟩
        · rw [← heq, hrun] at hu
          cases hu
        · rw [hu] at hb
          cases hb
  · by_cases hst : ∃ t, l = .starts t
    · obtain ⟨t, rfl⟩ := hst
      cases ha with
      | starts ht _ _ _ _ _ _ hplace =>
          rw [state_of_place hplace] at hrun
          split at hrun
          · rename_i hut
            rw [hut, (h.fresh t ht).2] at hu
            cases hu
          · rw [hrun] at hu
            cases hu
    · rw [ha.running_of h hsw (fun t ht => hst ⟨t, ht⟩) hrun] at hu
      cases hu

/-- A step that moves one thread and suspends it on an event only. -/
lemma event_of_place (hs : ∀ u, s.state u = .suspended → (s.waitq.entity u).waitevt ≠ none)
    {t : Tid} {p : Place} (hplace : s'.place = Function.update s.place t p)
    (hevent : p.state = .suspended → p.event ≠ none) (u : Tid) (hu : s'.state u = .suspended) :
    (s'.waitq.entity u).waitevt ≠ none := by
  rw [state_of_place hplace] at hu
  rw [waitevt_of_place hplace]
  split at hu
  · rename_i hut
    rw [if_pos hut]
    exact hevent hu
  · rename_i hut
    rw [if_neg hut]
    exact hs u hu

/-- A tick suspends no thread. -/
lemma Woken.event {elapsed : ℕ} (hw : Woken elapsed (s.advanced elapsed) s')
    (hs : ∀ u, s.state u = .suspended → (s.waitq.entity u).waitevt ≠ none) (t : Tid)
    (ht : s'.state t = .suspended) : (s'.waitq.entity t).waitevt ≠ none := by
  by_cases hwait : s.state t = .waiting
  · -- a thread of the timeout tree stays there or becomes ready
    rcases (hw.woken t hwait).place with hplace | hplace
    · have hstate : s'.state t = s.state t := congrArg Place.state hplace
      rw [ht, hwait] at hstate
      cases hstate
    · have hstate : s'.state t = .ready := congrArg Place.state hplace
      rw [ht] at hstate
      cases hstate
  · have hplace := hw.other t hwait
    have hstate : s'.state t = s.state t := congrArg Place.state hplace
    have hevent : (s'.waitq.entity t).waitevt = (s.waitq.entity t).waitevt :=
      congrArg Place.event hplace
    rw [hevent]
    exact hs t (hstate.symm.trans ht)

/-- A switch suspends no thread. -/
lemma Switches.event {elapsed : ℕ} (hsw : Switches elapsed s s')
    (hs : ∀ u, s.state u = .suspended → (s.waitq.entity u).waitevt ≠ none) (t : Tid)
    (ht : s'.state t = .suspended) : (s'.waitq.entity t).waitevt ≠ none := by
  rw [hsw.waitq]
  refine hs t ?_
  rcases hsw.blocked t with heq | ⟨hb, -⟩
  · rw [← heq]
    exact ht
  · rw [ht] at hb
    cases hb

/-- While the time is far from its maximum, a thread is suspended on an event only. -/
lemma Act.event {l : Label} (ha : Act l s s') (hearly : s'.Early)
    (hs : ∀ u, s.state u = .suspended → (s.waitq.entity u).waitevt ≠ none) (u : Tid)
    (hu : s'.state u = .suspended) : (s'.waitq.entity u).waitevt ≠ none := by
  cases ha with
  | @yields _ s₁ t _ _ hy => exact event_of_place hs hy.moves.place (hs t) u hu
  | @sleeps _ s₁ t _ x ha hx hlong hb =>
      refine event_of_place hs hb.moves.place (fun hsusp => ?_) u hu
      -- a sleep without end would be too late
      have hmax := hlong hsusp
      rw [← hb.nowTicks] at hmax
      have hnow : s₁.ktimers.nowTicks < u64Max - 2 ^ 32 := hearly
      simp only [u64Max, u32Max] at hmax hnow
      omega
  | blocks _ hb => exact event_of_place hs hb.moves.place (fun _ => Option.some_ne_none _) u hu
  | times _ _ _ => exact hs u hu
  | wakes _ hr => exact event_of_place hs hr.moves.place (fun hsusp => by cases hsusp) u hu
  | @sets _ _ t hm _ _ => exact event_of_place hs hm.place (hs t) u hu
  | ticks hw _ _ _ => exact hw.event hs u hu
  | switches hsw => exact hsw.event hs u hu
  | spawns _ hsp _ => exact event_of_place hs hsp.place (fun hsusp => by cases hsusp) u hu
  | starts _ _ _ _ _ _ _ hplace =>
      exact event_of_place hs hplace (fun hsusp => by cases hsusp) u hu

/-! ### The indices -/

/-- The indices that hold a thread are those its state names. -/
structure Indexed (s : Sched) : Prop where
  isCfs : ∀ c, s.current = some c → (s.currentIsCfs = true ↔ s.kind c = .cfs)
  running : ∀ t, s.state t = .running ↔ s.current = some t
  queued : ∀ t, s.kind t = .cfs → (t ∈ s.runq.tree ↔ s.state t = .ready)
  timer : ∀ t, s.kind t = .rt →
    (Xor (.rt t ∈ s.ktimers.active) (.rt t ∈ s.ktimers.inactive) ↔ (s.state t).isBlocked = false)
  noTimer : ∀ t, s.kind t = .rt →
    ((.rt t ∉ s.ktimers.active ∧ .rt t ∉ s.ktimers.inactive) ↔ (s.state t).isBlocked = true)
  timed : ∀ t, t ∈ s.waitq.tree ↔ s.state t = .waiting
  parked : ∀ t, t ∈ s.waitq.suspended ↔ s.state t = .suspended
  free : ∀ t, s.state t ≠ .suspended → ∀ o, t ∉ s.waiters o
  registered : ∀ t, s.state t = .suspended → ∃ o, t ∈ s.waiters o ∧
    (s.waitq.entity t).waitevt = some o.syncType ∧ ∀ o', t ∈ s.waiters o' → o' = o

lemma Serial.indexed (h : s.Inv) (hs : s.Serial) (hpend : s.pendsv = false) : s.Indexed where
  isCfs c hc := by
    rw [h.isCfs c hc]
    exact decide_eq_true_iff
  running t := ⟨h.running t, hs.running hpend t⟩
  queued t hk := (h.ok t).queued.trans ⟨fun hq => hq.2, fun hq => ⟨hk, hq⟩⟩
  timer t hk := by
    have hlinked : s.ktimers.Linked (.rt t) ↔ (s.state t).isBlocked = false :=
      (h.ok t).timer.trans ⟨fun ht => ht.2, fun ht => ⟨hk, ht⟩⟩
    rw [← hlinked]
    refine ⟨fun hx => Xor.or hx, fun hl => ?_⟩
    -- the active flag of a linked timer names its tree
    have hnot : ¬ (.rt t ∈ s.ktimers.active ∧ .rt t ∈ s.ktimers.inactive) := by
      rintro ⟨ha, hi⟩
      have hflag := h.tidy.ktimers.flag_active _ ha
      rw [h.tidy.ktimers.flag_inactive _ hi] at hflag
      cases hflag
    exact (xor_iff_or_and_not_and _ _).mpr ⟨hl, hnot⟩
  noTimer t hk := by
    have hlinked : s.ktimers.Linked (.rt t) ↔ (s.state t).isBlocked = false :=
      (h.ok t).timer.trans ⟨fun ht => ht.2, fun ht => ⟨hk, ht⟩⟩
    rw [← not_or, show (_ ∨ _) = s.ktimers.Linked (.rt t) from rfl, hlinked]
    exact Iff.of_eq (Bool.not_eq_false _)
  timed t := (h.ok t).timed
  parked t := (h.ok t).parked
  free t ht := h.notMem_waiters ht
  registered t ht := by
    obtain ⟨o, ho⟩ := (h.ok t).registered ht (hs.event t ht)
    exact ⟨o, ho, ((h.ok t).waits o ho).2, fun o' ho' => (h.ok t).unique o' o ho' ho⟩

/-- A sequence of actions of one step of a serialized run: only the deadline of an owner is set
before or after the action proper. -/
theorem Path.prompt {ls : List Label} (h : s.Inv) (hs : s.Prompt) (hno : s.pendsv = false)
    (hp : Path ls s s') (hl : StepLabels ls) : s'.Prompt := by
  cases hl with
  | nil =>
      rw [hp.eq_of_nil]
      exact hs
  | single l => exact hp.act.prompt h hs (Or.inr (Or.inr hno))
  | boost t o elapsed u =>
      obtain ⟨s₁, ha, ha'⟩ := hp.act_act
      have hmid := ha.prompt h hs (Or.inr (Or.inr hno))
      exact ha'.prompt (ha.inv h) hmid (Or.inl ⟨u, rfl⟩)
  | restore u t o =>
      obtain ⟨s₁, ha, ha'⟩ := hp.act_act
      have hmid := ha.prompt h hs (Or.inr (Or.inr hno))
      exact ha'.prompt (ha.inv h) hmid (Or.inr (Or.inr (ha.pendsv.trans hno)))

/-- A blocked thread does not run after one step. -/
lemma Path.ne_running {ls : List Label} (h : s.Inv) (hp : Path ls s s') (hl : StepLabels ls)
    {u : Tid} (hu : (s.state u).isBlocked = true) : s'.state u ≠ .running := by
  cases hl with
  | nil =>
      rw [hp.eq_of_nil]
      intro hrun
      rw [hrun] at hu
      cases hu
  | single l => exact hp.act.ne_running h hu
  | boost t o elapsed u' =>
      obtain ⟨s₁, ha, ha'⟩ := hp.act_act
      intro hrun
      exact ha.ne_running h hu (ha'.running_of (ha.inv h) (by simp) (by simp) hrun)
  | restore u' t o =>
      obtain ⟨s₁, ha, ha'⟩ := hp.act_act
      intro hrun
      exact ha.ne_running h hu (ha'.running_of (ha.inv h) (by simp) (by simp) hrun)

lemma Path.now_le {ls : List Label} (h : s.Inv) (hp : Path ls s s') :
    s.ktimers.nowTicks ≤ s'.ktimers.nowTicks := by
  induction hp with
  | nil => exact le_rfl
  | cons ha _ ih => exact (ha.now_le h).trans (ih (ha.inv h))

lemma Path.event {ls : List Label} (h : s.Inv) (hp : Path ls s s') (hearly : s'.Early)
    (hs : ∀ u, s.state u = .suspended → (s.waitq.entity u).waitevt ≠ none) :
    ∀ u, s'.state u = .suspended → (s'.waitq.entity u).waitevt ≠ none := by
  induction hp with
  | nil => exact hs
  | cons ha hp ih =>
      have hmid := (hp.now_le (ha.inv h)).trans_lt hearly
      exact ih (ha.inv h) hearly (ha.event hmid hs)

end Sched

namespace Kernel

variable {α : Type} {k k' : Kernel α} {reply : Reply α}

/-- A step of a serialized run: a pending switch comes first, and the time stays far from its
maximum. -/
def SerialStep (k k' : Kernel α) : Prop :=
  ∃ ev reply, k.Enabled ev ∧ (k.sched.pendsv = true → ev.isSchedule = true) ∧
    k.exec ev = .ok (k', reply) ∧ k'.sched.Early

/-- The states of serialized runs. -/
abbrev SerialReachable (k : Kernel α) : Prop := Runs.Reach Initial SerialStep k

/-- A serialized run is a run. -/
lemma SerialReachable.reachable (h : k.SerialReachable) : k.Reachable :=
  Runs.Reach.mono (fun _ hi => hi)
    (fun _ _ ⟨ev, reply, hen, _, hrun, _⟩ => ⟨ev, reply, hen, hrun⟩) h

/-- A step of a serialized run, whatever the time. -/
def PromptStep (k k' : Kernel α) : Prop :=
  ∃ ev reply, k.Enabled ev ∧ (k.sched.pendsv = true → ev.isSchedule = true) ∧
    k.exec ev = .ok (k', reply)

/-- The states of serialized runs, whatever the time. -/
abbrev PromptReachable (k : Kernel α) : Prop := Runs.Reach Initial PromptStep k

lemma PromptReachable.reachable (h : k.PromptReachable) : k.Reachable :=
  Runs.Reach.mono (fun _ hi => hi) (fun _ _ ⟨ev, reply, hen, _, hrun⟩ => ⟨ev, reply, hen, hrun⟩) h

lemma SerialReachable.promptReachable (h : k.SerialReachable) : k.PromptReachable :=
  Runs.Reach.mono (fun _ hi => hi)
    (fun _ _ ⟨ev, reply, hen, hfirst, hrun, _⟩ => ⟨ev, reply, hen, hfirst, hrun⟩) h

/-- At the start there is no current thread. -/
lemma Initial.prompt (h : k.Initial) : k.sched.Prompt := by
  obtain ⟨layout, periodTicks, execTicks, hboot⟩ := h.boot
  obtain ⟨-, hc, -⟩ := Sched.boot_base hboot
  refine ⟨fun c hcur => ?_, fun _ c hcur => ?_⟩
  · rw [hc] at hcur
    cases hcur
  · rw [hc] at hcur
    cases hcur

/-- **A step of a serialized run.** -/
theorem PromptStep.prompt (h : k.Inv) (hs : k.sched.Prompt) (hstep : PromptStep k k') :
    k'.sched.Prompt := by
  obtain ⟨ev, reply, hen, hfirst, hrun⟩ := hstep
  obtain ⟨ls, hpath, hl⟩ := (h.does hen hrun).path
  cases hpend : k.sched.pendsv with
  | false => exact hpath.prompt h.sched hs hpend (stepLabels_of hl)
  | true =>
      obtain ⟨port, rfl⟩ := Event.isSchedule_iff.mp (hfirst hpend)
      have hsw : ls = [.switches] := by
        rcases hl with hl | ⟨hq, -⟩
        · exact hl
        · cases hq
      subst hsw
      exact hpath.act.prompt h.sched hs (Or.inr (Or.inl rfl))

lemma promptReachable_prompt (h : k.PromptReachable) : k.sched.Prompt := by
  induction h with
  | start h => exact h.prompt
  | step hr hs ih => exact hs.prompt (reachable_inv (PromptReachable.reachable hr)) ih

/-! ### The states of the threads -/

/-- A step of a serialized run makes no forbidden transition. -/
lemma prompt_fault (h : k.Inv) (hs : k.sched.Prompt) {ev : Event α} (hen : k.Enabled ev) {f : Fault}
    (hrun : k.exec ev = .error f) : f.Benign := by
  have hf := (exec_spec h.sched h.rings hen).error hrun
  cases ev with
  | schedule port =>
      rcases hf with rfl | ⟨⟨d, hd, -, hready⟩, -⟩
      · exact Or.inr (Or.inl rfl)
      · exact absurd hready (hs.current d hd)
  | _ => exact hf

/-- **The states of the threads in a serialized run.**  No assertion on a transition fails; a
blocked thread does not run before it has been made ready; the idle thread is never blocked; and
after every switch exactly the current thread runs. -/
theorem prompt_states (h : k.PromptReachable) :
    (∀ ev, k.Enabled ev → k.exec ev ≠ .error .badTransition) ∧
    (∀ ev k' reply, k.Enabled ev → k.exec ev = .ok (k', reply) →
      ∀ t, (k.sched.state t).isBlocked = true → k'.sched.state t ≠ .running) ∧
    (∀ i, k.sched.idle = some i → (k.sched.state i).isBlocked = false) ∧
    (∀ port k' reply, k.Enabled (.schedule port) → k.exec (.schedule port) = .ok (k', reply) →
      ∃ c, k'.sched.current = some c ∧ ∀ t, k'.sched.state t = .running ↔ t = c) := by
  have hinv := reachable_inv h.reachable
  have hs := promptReachable_prompt h
  refine ⟨fun ev hen hrun => ?_, fun ev k' reply hen hrun t ht => ?_, fun i hi => ?_,
    fun port k' reply hen hrun => ?_⟩
  · exact absurd (prompt_fault hinv hs hen hrun) (by decide)
  · obtain ⟨ls, hpath, hl⟩ := (hinv.does hen hrun).path
    exact hpath.ne_running hinv.sched (stepLabels_of hl) ht
  · exact (hinv.sched.ok i).idle (hinv.sched.idle i hi).1
  · have hsw := hinv.switches hen hrun
    obtain ⟨n, hn, -⟩ := hsw.current
    refine ⟨n, hn, fun t => ⟨fun ht => ?_, ?_⟩⟩
    · exact Option.some.inj ((hsw.inv.running t ht).symm.trans hn)
    · rintro rfl
      exact hsw.running hs t hn

/-- No thread of a serialized run sleeps for ever. -/
lemma serialReachable_event (h : k.SerialReachable) (t : Tid) (ht : k.sched.state t = .suspended) :
    (k.sched.waitq.entity t).waitevt ≠ none := by
  induction h generalizing t with
  | @start k h =>
      obtain ⟨layout, periodTicks, execTicks, hboot⟩ := h.boot
      obtain ⟨hinv, -, hsp, -⟩ := Sched.boot_base hboot
      have hfresh := (hinv.fresh t (by rw [hsp]; simp)).2
      rw [ht] at hfresh
      cases hfresh
  | @step k k' hr hs ih =>
      obtain ⟨ev, reply, hen, -, hrun, hearly⟩ := hs
      have hinv := reachable_inv (SerialReachable.reachable hr)
      obtain ⟨ls, hpath, -⟩ := (hinv.does hen hrun).path
      exact hpath.event hinv.sched hearly ih t ht

lemma serialReachable_serial (h : k.SerialReachable) : k.sched.Serial :=
  ⟨promptReachable_prompt h.promptReachable, serialReachable_event h⟩

/-- **The indices of a serialized run.**  Every switch of a serialized run ends with all indices
right, unless the accounting of CFS overflows; and no step that can follow inserts a linked node,
removes one that is not linked, or fails an assertion on the state of a thread. -/
theorem serial_indexed (h : k.SerialReachable) {port : TimerPort}
    (hen : k.Enabled (.schedule port)) :
    Ends (· = .arithmetic) (k.exec (.schedule port)) fun r =>
      r.1.sched.Indexed ∧ ∀ ev, r.1.Enabled ev → Ends Fault.Benign (r.1.exec ev) fun _ => True := by
  have hinv := reachable_inv h.reachable
  have hs := serialReachable_serial h
  cases hrun : k.exec (.schedule port) with
  | error f =>
      rcases (exec_spec hinv.sched hinv.rings hen).error hrun with hf | ⟨⟨d, hd, -, hready⟩, -⟩
      · exact hf
      · exact absurd hready (hs.current d hd)
  | ok r =>
      have hd := hinv.does hen hrun
      have hinv' := hd.inv hinv
      have hsw := hinv.switches hen hrun
      have hs' : r.1.sched.Serial := ⟨hsw.prompt hs.toPrompt, hsw.event hs.event⟩
      refine ⟨hs'.indexed hsw.inv hsw.pendsv, fun ev hen' => ?_⟩
      refine (exec_spec hinv'.sched hinv'.rings hen').mono (fun f hf => ?_) fun _ _ => trivial
      cases ev with
      | schedule port' =>
          -- no switch is pending after a switch
          have hpend : r.1.sched.pendsv = true := hen'.1
          rw [hsw.pendsv] at hpend
          cases hpend
      | _ => exact hf

/-- The state after a step of a serialized run. -/
def serialNext (k : Kernel α) (ev : Event α) : Option (Kernel α) := do
  let k' ← k.next ev
  if (k.sched.pendsv = true → ev.isSchedule = true) ∧ k'.sched.Early then some k' else none

lemma serialNext_step {ev : Event α} (h : k.serialNext ev = some k') : SerialStep k k' := by
  obtain ⟨k₁, hnext, hif⟩ := Option.bind_eq_some_iff.mp h
  obtain ⟨hen, reply, hrun⟩ := next_eq_some.mp hnext
  split at hif
  · rename_i hcond
    obtain rfl := Option.some.inj hif
    exact ⟨ev, reply, hen, hcond.1, hrun, hcond.2⟩
  · cases hif

/-- An RT thread blocks on a semaphore. -/
def blockedTrial : Option (Kernel ℕ) := trial serialNext
  [.spawnCfs 1 10, .spawnRt 2 ⟨900, 800, 100⟩, .start 0, .tick ⟨some 499, some 0⟩ 8,
    .schedule ⟨some 499, some 0⟩, .take (.binary 0) ⟨some 299, some 259⟩]

theorem serial_indexed_blocked : ∃ k, blockedTrial = some k ∧
    Ends (· = .arithmetic) (k.exec (.schedule ⟨some 299, some 259⟩)) fun r =>
      r.1.sched.Indexed ∧ ∀ ev, r.1.Enabled ev → Ends Fault.Benign (r.1.exec ev) fun _ => True := by
  have htest : blockedTrial.any
      (fun k => decide (k.Enabled (.schedule ⟨some 299, some 259⟩))) = true := by decide +kernel
  obtain ⟨k, hk, hen⟩ := (Option.any_eq_true ..).mp htest
  exact ⟨k, hk, serial_indexed (trial_reach (fun _ _ _ => serialNext_step) hk)
    (of_decide_eq_true hen)⟩

theorem prompt_states_blocked : ∃ k k', blockedTrial = some k ∧ k.sched.state 2 = .suspended ∧
    k.exec (.schedule ⟨some 299, some 259⟩) = .ok (k', .done) ∧
    ∃ c, k'.sched.current = some c ∧ ∀ t, k'.sched.state t = .running ↔ t = c := by
  have htest : blockedTrial.any (fun k => k.sched.state 2 == .suspended &&
      decide (k.Enabled (.schedule ⟨some 299, some 259⟩)) &&
      (k.fault (.schedule ⟨some 299, some 259⟩)).isNone) = true := by decide +kernel
  obtain ⟨k, hk, htest⟩ := (Option.any_eq_true ..).mp htest
  simp only [Bool.and_eq_true, beq_iff_eq, decide_eq_true_eq] at htest
  obtain ⟨⟨hsusp, hen⟩, hok⟩ := htest
  obtain ⟨k', hrun⟩ := exists_of_fault_isNone hok
  have hreach := trial_reach (fun _ _ _ => serialNext_step) hk
  exact ⟨k, k', hk, hsusp, hrun,
    (prompt_states (SerialReachable.promptReachable hreach)).2.2.2 _ _ _ hen hrun⟩

end Kernel

end Rtsched

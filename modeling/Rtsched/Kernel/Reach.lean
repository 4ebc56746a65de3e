import Rtsched.Kernel.StepSpec

/-!
The invariant of the kernel in every run.

* `Sched.Act.mem_waiters`: how an action changes the waiter trees.
* `Kernel.Inv`: the scheduler and the rings are in order, and a thread that waits for a message
  queue is in the call it waits for.
* `Kernel.reachable_inv`: **every reachable state satisfies it**, whatever the interleaving.
-/

namespace Rtsched

open Outcome

/-- The sequences of actions that one step of the kernel can make. -/
inductive StepLabels : List Label → Prop
  | nil : StepLabels []
  | single (l : Label) : StepLabels [l]
  | boost (t : Tid) (o : WaitObject) (elapsed : ℕ) (u : Tid) :
      StepLabels [.blocks t o elapsed, .sets u]
  | restore (u t : Tid) (o : WaitObject) : StepLabels [.sets u, .wakes t o]

/-- The object belongs to a message queue. -/
def WaitObject.isQueue : WaitObject → Bool
  | messageQueueSend _ | messageQueueReceive _ => true
  | _ => false

/-- The semaphore or mutex whose waiters a step can change. -/
def Event.object {α : Type} : Event α → Option WaitObject
  | .take i _ | .give i => some i.object
  | .lock i _ | .unlock i => some (.mutex i)
  | _ => none

lemma Event.object_ne {α : Type} (ev : Event α) {o : WaitObject} (ho : o.isQueue = true) :
    ev.object ≠ some o := by
  intro h
  cases ev <;> simp only [object, Option.some.injEq, reduceCtorEq] at h <;> subst h
  all_goals first
    | cases ho
    | (rename_i i _; cases i <;> cases ho)
    | (rename_i i; cases i <;> cases ho)

/-- The action blocks no thread on the object and wakes none of its waiters. -/
def Label.Avoids (o : WaitObject) : Label → Prop
  | blocks _ o' _ | wakes _ o' => o' ≠ o
  | _ => True

/-- The thread that the action puts to sleep or suspends. -/
def Label.stops : Label → Option Tid
  | sleeps t _ | blocks t _ _ => some t
  | _ => none

namespace Sched

variable {s s' : Sched}

/-- The waiters after an action. -/
def waitersAfter (s : Sched) (l : Label) (u : Tid) (o : WaitObject) : Prop :=
  match l with
  | .blocks t o' _ => u ∈ s.waiters o ∨ (u = t ∧ o = o')
  | .wakes t _ => u ∈ s.waiters o ∧ u ≠ t
  | _ => u ∈ s.waiters o

/-- A thread that is not suspended waits for no object. -/
lemma Inv.notMem_waiters (h : s.Inv) {t : Tid} (ht : s.state t ≠ .suspended) (o : WaitObject) :
    t ∉ s.waiters o := fun hmem => ht ((h.ok t).waits o hmem).1

/-- A step that moves the thread `t` leaves the waits of every other thread alone. -/
lemma mem_waiters_of_place {t u : Tid} {p : Place}
    (hplace : s'.place = Function.update s.place t p) (o : WaitObject) :
    u ∈ s'.waiters o ↔ if u = t then p.waitsOn o else u ∈ s.waiters o := by
  change (s'.place u).waitsOn o ↔ _
  rw [hplace]
  by_cases hu : u = t
  · rw [hu, Function.update_self, if_pos rfl]
  · rw [Function.update_of_ne hu, if_neg hu]
    rfl

/-- **How an action changes the waiter trees.** -/
theorem Act.mem_waiters {l : Label} (h : s.Inv) (ha : Act l s s') (u : Tid) (o : WaitObject) :
    u ∈ s'.waiters o ↔ s.waitersAfter l u o := by
  cases ha with
  | @yields _ s₁ t _ ha hy =>
      change u ∈ s₁.waiters o ↔ _
      rw [mem_waiters_of_place hy.moves.place]
      by_cases hu : u = t
      · rw [if_pos hu, hu]
        rfl
      · rw [if_neg hu]
        rfl
  | @sleeps _ s₁ t _ _ ha _ _ hb =>
      change u ∈ s₁.waiters o ↔ _
      rw [mem_waiters_of_place hb.moves.place]
      by_cases hu : u = t
      · rw [if_pos hu, hu]
        exact iff_of_false id (h.notMem_waiters (ThreadState.ne_suspended ha.awake) o)
      · rw [if_neg hu]
        rfl
  | @blocks _ s₁ t _ o' ha hb =>
      change u ∈ s₁.waiters o ↔ _
      rw [mem_waiters_of_place hb.moves.place]
      by_cases hu : u = t
      · subst hu
        rw [if_pos rfl]
        have hnot := h.notMem_waiters (ThreadState.ne_suspended ha.awake) o
        exact ⟨fun ho => Or.inr ⟨rfl, ho⟩, fun ho => (ho.resolve_left hnot).2⟩
      · rw [if_neg hu]
        exact ⟨Or.inl, fun ho => ho.resolve_right fun hc => hu hc.1⟩
  | times _ _ _ => exact Iff.rfl
  | @wakes _ s₁ t o' ht hr =>
      change u ∈ s₁.waiters o ↔ _
      rw [mem_waiters_of_place hr.moves.place]
      by_cases hu : u = t
      · rw [if_pos hu]
        exact iff_of_false id fun ho => ho.2 hu
      · rw [if_neg hu]
        exact ⟨fun ho => ⟨ho, hu⟩, fun ho => ho.1⟩
  | @sets _ _ t hm _ _ =>
      rw [mem_waiters_of_place hm.place]
      by_cases hu : u = t
      · rw [if_pos hu, hu]
        rfl
      · rw [if_neg hu]
        rfl
  | @ticks _ s₁ elapsed hw _ _ _ =>
      change (s₁.place u).waitsOn o ↔ u ∈ s.waiters o
      by_cases hu : s.state u = .waiting
      · have hnot : u ∉ s.waiters o :=
          h.notMem_waiters (by rw [hu]; decide) o
        rcases (hw.woken u hu).place with hplace | hplace
        · rw [hplace]
          rfl
        · rw [hplace]
          exact iff_of_false id hnot
      · rw [hw.other u hu]
        rfl
  | switches hs =>
      rw [hs.waiters]
      rfl
  | @spawns _ _ t kind ht hs _ =>
      rw [mem_waiters_of_place hs.place]
      by_cases hu : u = t
      · rw [if_pos hu, hu]
        refine iff_of_false id (h.notMem_waiters ?_ o)
        rw [(h.fresh t ht).2]
        decide
      · rw [if_neg hu]
        rfl
  | @starts _ _ t ht _ _ _ _ _ _ hplace =>
      rw [mem_waiters_of_place hplace]
      by_cases hu : u = t
      · rw [if_pos hu, hu]
        refine iff_of_false id (h.notMem_waiters ?_ o)
        rw [(h.fresh t ht).2]
        decide
      · rw [if_neg hu]
        rfl

/-- The key of a thread that stays registered with an object does not change. -/
theorem Act.deadlineAt_eq {l : Label} (h : s.Inv) (ha : Act l s s') {u : Tid} {o : WaitObject}
    (hu : u ∈ s.waiters o) (hu' : u ∈ s'.waiters o) : s'.deadlineAt u = s.deadlineAt u := by
  have hsusp : s.state u = .suspended := ((h.ok u).waits o hu).1
  have hacting : ∀ {t : Tid}, s.Acting t → u ≠ t := by
    rintro t hact rfl
    have hb := hact.awake
    rw [hsusp] at hb
    cases hb
  have hspawned : ∀ {t : Tid}, t ∉ s.spawned → u ≠ t := by
    rintro t ht rfl
    rw [(h.fresh u ht).2] at hsusp
    cases hsusp
  cases ha with
  | yields hact hy => exact hy.moves.keys.sync u (hacting hact)
  | sleeps hact _ _ hb => exact hb.moves.keys.sync u (hacting hact)
  | blocks hact hb _ => exact hb.moves.keys.sync u (hacting hact)
  | times _ _ _ => rfl
  | @wakes _ s₁ t o' ht hr _ =>
      refine hr.moves.keys.sync u ?_
      rintro rfl
      exact (((Act.wakes ht hr ‹_›).mem_waiters h u o).mp hu').2 rfl
  | sets _ _ _ hsets => rw [hsets.keys]
  | ticks hw _ _ _ _ _ =>
      exact hw.keys u (by rw [show (s.advanced _).state u = _ from hsusp]; decide)
  | switches hs => rw [hs.keys]
  | spawns ht hs _ _ _ => exact hs.keys.sync u (hspawned ht)
  | starts ht _ _ _ _ _ _ _ hkeys _ _ => exact hkeys.sync u (hspawned ht)

/-- The thread that blocks is the current one. -/
lemma Act.acting {t : Tid} {o : WaitObject} {elapsed : ℕ} (ha : Act (.blocks t o elapsed) s s') :
    s.Acting t := by
  cases ha with
  | blocks ha _ => exact ha

/-- A thread that blocks is registered with the expiration of its timer as its key. -/
lemma Act.deadlineAt_blocks {t : Tid} {o : WaitObject} {elapsed : ℕ}
    (ha : Act (.blocks t o elapsed) s s') : s'.deadlineAt t = s.threadSchedulerExpireAt t := by
  cases ha with
  | blocks _ _ hkey => exact hkey

/-- The waiter that is woken is the first one. -/
lemma Act.head?_wakes {t : Tid} {o : WaitObject} (ha : Act (.wakes t o) s s') :
    (s.waiters o).head? = some t := by
  cases ha with
  | wakes _ _ hfirst => exact hfirst

/-- Waking a thread makes it ready and changes the state of no other. -/
lemma Act.state_wakes {t : Tid} {o : WaitObject} (ha : Act (.wakes t o) s s') (u : Tid) :
    s'.state u = if u = t then .ready else s.state u := by
  cases ha with
  | @wakes _ s₁ _ _ _ hr _ =>
      change s₁.state u = _
      by_cases hu : u = t
      · rw [hu, if_pos rfl]
        exact hr.moves.state_self
      · rw [if_neg hu]
        exact congrArg Place.state (hr.moves.other hu)

/-- A thread that is not blocked stays so, unless the action stops it. -/
lemma Act.awake {l : Label} {u : Tid} (ha : Act l s s') (hl : l.stops ≠ some u)
    (hu : (s.state u).isBlocked = false) : (s'.state u).isBlocked = false := by
  have hmoves : ∀ {t : Tid} {p : Place}, s'.place = Function.update s.place t p →
      (u = t → p.state.isBlocked = false) → (s'.state u).isBlocked = false := by
    intro t p hplace hp
    rw [state_of_place hplace]
    split
    · rename_i hut
      exact hp hut
    · exact hu
  cases ha with
  | yields _ hy => exact hmoves hy.moves.place fun hut => hut ▸ hu
  | sleeps _ _ _ hb => exact hmoves hb.moves.place fun hut => absurd (congrArg some hut.symm) hl
  | blocks _ hb _ => exact hmoves hb.moves.place fun hut => absurd (congrArg some hut.symm) hl
  | times _ _ _ => exact hu
  | wakes _ hr _ => exact hmoves hr.moves.place fun _ => rfl
  | sets hm _ _ _ => exact hmoves hm.place fun hut => hut ▸ hu
  | @ticks _ s₁ elapsed hw _ _ _ _ _ =>
      have hstate : s₁.state u = s.state u := by
        refine congrArg Place.state (hw.other u fun hwait => ?_)
        rw [show s.state u = .waiting from hwait] at hu
        cases hu
      exact (congrArg ThreadState.isBlocked hstate).trans hu
  | switches hs =>
      rcases hs.blocked u with heq | ⟨hb, -⟩
      · rw [heq]
        exact hu
      · exact hb
  | spawns _ hs _ _ _ => exact hmoves hs.place fun _ => rfl
  | starts _ _ _ _ _ _ _ hplace _ _ _ => exact hmoves hplace fun _ => rfl

lemma Path.awake {ls : List Label} {u : Tid} (hp : Path ls s s') (hls : ∀ l ∈ ls, l.stops ≠ some u)
    (hu : (s.state u).isBlocked = false) : (s'.state u).isBlocked = false := by
  induction hp with
  | nil => exact hu
  | cons ha _ ih =>
      exact ih (fun l hl => hls l (List.mem_cons_of_mem _ hl))
        (ha.awake (hls _ List.mem_cons_self) hu)

/-- The threads that have been created stay created. -/
lemma Act.spawned_subset {l : Label} (ha : Act l s s') {u : Tid} (hu : u ∈ s.spawned) :
    u ∈ s'.spawned := by
  cases ha with
  | yields _ hy => exact (hy.moves.control.spawned.symm ▸ hu : _)
  | sleeps _ _ _ hb => exact (hb.moves.control.spawned.symm ▸ hu : _)
  | blocks _ hb => exact (hb.moves.control.spawned.symm ▸ hu : _)
  | times _ _ _ => exact hu
  | wakes _ hr => exact (hr.moves.control.spawned.symm ▸ hu : _)
  | sets hm _ _ => exact (hm.control.spawned.symm ▸ hu : _)
  | ticks hw _ _ _ => exact (hw.control.spawned.symm ▸ hu : _)
  | switches hs => exact (hs.spawned.symm ▸ hu : _)
  | spawns _ hs _ =>
      rw [hs.spawned]
      exact List.mem_cons_of_mem _ hu
  | starts _ _ _ _ _ _ hs _ =>
      rw [hs]
      exact List.mem_cons_of_mem _ hu

/-- A sequence of actions that do not concern an object leaves its waiters alone. -/
lemma Path.mem_waiters {ls : List Label} (h : s.Inv) (hp : Path ls s s') {o : WaitObject}
    (hl : ∀ l ∈ ls, l.Avoids o) (u : Tid) : u ∈ s'.waiters o ↔ u ∈ s.waiters o := by
  induction hp with
  | nil => exact Iff.rfl
  | @cons s s' _ l ls ha hp ih =>
      rw [ih (ha.inv h) fun l' hl' => hl l' (List.mem_cons_of_mem _ hl'), ha.mem_waiters h]
      have hav := hl l (List.mem_cons_self ..)
      cases ha with
      | blocks _ _ => exact ⟨fun hu => hu.resolve_right fun hu => hav hu.2.symm, Or.inl⟩
      | @wakes _ _ t o' ht _ =>
          refine ⟨fun hu => hu.1, fun hu => ⟨hu, ?_⟩⟩
          -- the woken thread waits for the other object only
          rintro rfl
          exact hav ((h.ok u).unique o' o ht hu)
      | yields _ _ => exact Iff.rfl
      | sleeps _ _ _ _ => exact Iff.rfl
      | times _ _ _ => exact Iff.rfl
      | sets _ _ _ => exact Iff.rfl
      | ticks _ _ _ _ => exact Iff.rfl
      | switches _ => exact Iff.rfl
      | spawns _ _ _ => exact Iff.rfl
      | starts _ _ _ _ _ _ _ _ => exact Iff.rfl

/-- The keys of the waiters of an object that a sequence of actions does not concern. -/
lemma Path.deadlineAt_eq {ls : List Label} (h : s.Inv) (hp : Path ls s s') {o : WaitObject}
    (hl : ∀ l ∈ ls, l.Avoids o) {u : Tid} (hu : u ∈ s.waiters o) :
    s'.deadlineAt u = s.deadlineAt u := by
  induction hp with
  | nil => rfl
  | @cons s s' _ l ls ha hp ih =>
      have hpath : Path [l] s s' := .single ha
      have hu' : u ∈ s'.waiters o :=
        (hpath.mem_waiters h (fun l' hl' => hl l' (by simp_all)) u).mpr hu
      rw [ih (ha.inv h) (fun l' hl' => hl l' (List.mem_cons_of_mem _ hl')) hu']
      exact ha.deadlineAt_eq h hu hu'

lemma Path.spawned_subset {ls : List Label} (hp : Path ls s s') {u : Tid} (hu : u ∈ s.spawned) :
    u ∈ s'.spawned := by
  induction hp with
  | nil => exact hu
  | cons ha _ ih => exact ih (ha.spawned_subset hu)

end Sched

namespace Kernel

variable {α : Type} {k k' : Kernel α} {ev : Event α} {reply : Reply α}

/-- A step that is not a queue operation leaves the waiters of every other object alone. -/
lemma Labels.avoids {ls : List Label} (h : Labels k k' ev ls) {o : WaitObject}
    (ho : ev.object ≠ some o) : ∀ l ∈ ls, l.Avoids o := by
  intro l hl
  cases ev with
  | yieldyi port =>
      rcases h with rfl | ⟨t, rfl⟩
      · cases hl
      · rw [List.mem_singleton.mp hl]
        trivial
  | msleepyi port ticksPerMs msec =>
      rcases h with rfl | ⟨t, rfl⟩
      · cases hl
      · rw [List.mem_singleton.mp hl]
        trivial
  | setRtThreadStartTime startTime =>
      rcases h with rfl | ⟨t, rfl⟩
      · cases hl
      · rw [List.mem_singleton.mp hl]
        trivial
  | take i port =>
      rcases h with rfl | ⟨t, rfl⟩
      · cases hl
      · rw [List.mem_singleton.mp hl]
        exact fun heq => ho (congrArg some heq)
  | give i =>
      rcases h with ⟨rfl, -⟩ | ⟨t, rfl⟩
      · cases hl
      · rw [List.mem_singleton.mp hl]
        exact fun heq => ho (congrArg some heq)
  | lock i port =>
      rcases h with rfl | ⟨t, rfl | ⟨-, u, rfl⟩⟩
      · cases hl
      · rw [List.mem_singleton.mp hl]
        exact fun heq => ho (congrArg some heq)
      · rcases List.mem_pair.mp hl with rfl | rfl
        · exact fun heq => ho (congrArg some heq)
        · trivial
  | unlock i =>
      obtain ⟨ls₁, ls₂, rfl, h₁, h₂⟩ := h
      rcases List.mem_append.mp hl with hl | hl
      · rcases h₁ with rfl | ⟨-, u, rfl⟩
        · cases hl
        · rw [List.mem_singleton.mp hl]
          trivial
      · rcases h₂ with ⟨rfl, -⟩ | ⟨t, rfl⟩
        · cases hl
        · rw [List.mem_singleton.mp hl]
          exact fun heq => ho (congrArg some heq)
  | tick port fuel =>
      rcases h with ⟨rfl, -⟩ | ⟨rfl, -⟩
      · cases hl
      · rw [List.mem_singleton.mp hl]
        trivial
  | schedule port =>
      rw [h] at hl
      rw [List.mem_singleton.mp hl]
      trivial
  | spawnCfs t priority =>
      rw [h] at hl
      rw [List.mem_singleton.mp hl]
      trivial
  | spawnRt t timing =>
      rw [h] at hl
      rw [List.mem_singleton.mp hl]
      trivial
  | start t =>
      rw [h] at hl
      rw [List.mem_singleton.mp hl]
      trivial
  | _ =>
      rw [h] at hl
      cases hl

/-- The invariant of the kernel. -/
structure Inv (k : Kernel α) : Prop where
  sched : k.sched.Inv
  rings : k.Rings
  waits : ∀ t o, o.isQueue = true → t ∈ k.sched.waiters o → ∃ c, k.call t = some c ∧ c.object = o
  calls : ∀ t, (k.call t).isSome → t ∈ k.sched.spawned

namespace Inv

/-- The waiters of a queue object that remain are in their calls. -/
lemma of_waiters (h : k.Inv) (hs : k'.sched.Inv) (hr : k'.Rings) (hcall : k'.call = k.call)
    (hw : ∀ t o, o.isQueue = true → t ∈ k'.sched.waiters o → t ∈ k.sched.waiters o)
    (hsp : ∀ t, t ∈ k.sched.spawned → t ∈ k'.sched.spawned) : k'.Inv where
  sched := hs
  rings := hr
  waits t o ho ht := by
    rw [hcall]
    exact h.waits t o ho (hw t o ho ht)
  calls t ht := hsp t (h.calls t (by rwa [hcall] at ht))

/-- The thread that retries its call waits for nothing. -/
lemma setCall (h : k.Inv) {t : Tid} (hc : k.sched.current = some t)
    (hpend : k.sched.pendsv = false) : (k.setCall t none).Inv where
  sched := h.sched
  rings := h.rings
  waits u o ho hu := by
    have hne : u ≠ t := by
      rintro rfl
      have hawake := h.sched.awake hpend u hc
      exact h.sched.notMem_waiters (ThreadState.ne_suspended hawake) o hu
    obtain ⟨c, hcall, hobj⟩ := h.waits u o ho hu
    exact ⟨c, (Function.update_of_ne hne ..).trans hcall, hobj⟩
  calls u hu := by
    refine h.calls u ?_
    by_cases hut : u = t
    · simp [Kernel.setCall, hut] at hu
    · simpa [Kernel.setCall, Function.update_of_ne hut] using hu

end Inv

/-- What waking a peer does to the waiters. -/
lemma WakesPeer.of_inv {o : WaitObject} (h : k.sched.Inv) (hw : WakesPeer o k k') :
    k'.sched.Inv ∧ (∀ t o', t ∈ k'.sched.waiters o' → t ∈ k.sched.waiters o') ∧
      (∀ t, t ∈ k.sched.spawned → t ∈ k'.sched.spawned) := by
  rcases hw with ⟨-, heq⟩ | ⟨t, -, hact⟩
  · rw [heq]
    exact ⟨h, fun _ _ => id, fun _ => id⟩
  · exact ⟨hact.inv h, fun u o' hu => ((hact.mem_waiters h u o').mp hu).1,
      fun _ => hact.spawned_subset⟩

/-- A stored ring and the others. -/
lemma Stores.queue_eq {i : ℕ} {l : List α} (hs : Stores i l k k') (j : ℕ) :
    (k'.queue j).cap = (k.queue j).cap ∧ (j = i → (k'.queue j).Holds l) ∧
      (j ≠ i → k'.queue j = k.queue j) := by
  obtain ⟨r, hr, hcap, hq⟩ := hs.ring
  rw [hq]
  by_cases hj : j = i
  · subst hj
    rw [Function.update_self]
    exact ⟨hcap, fun _ => hr, fun hne => absurd rfl hne⟩
  · rw [Function.update_of_ne hj]
    exact ⟨rfl, fun heq => absurd heq hj, fun _ => rfl⟩

/-- The rings after a message has been stored or taken. -/
lemma Stores.rings {i : ℕ} {l : List α} (h : k.Rings) (hs : Stores i l k k') : k'.Rings := by
  intro j
  obtain ⟨-, hself, hother⟩ := hs.queue_eq j
  by_cases hj : j = i
  · exact ⟨l, hself hj⟩
  · rw [hother hj]
    exact h j

/-- Parking a thread keeps the invariant. -/
lemma Parks.inv {t : Tid} {call : Call α} {elapsed : ℕ} (h : k.Inv)
    (hp : Parks t call elapsed k k') : k'.Inv where
  sched := hp.act.inv h.sched
  rings := by
    intro i
    rw [hp.queue]
    exact h.rings i
  waits u o ho hu := by
    rw [hp.call_eq]
    rcases (hp.act.mem_waiters h.sched u o).mp hu with hold | ⟨rfl, rfl⟩
    · have hne : u ≠ t := by
        rintro rfl
        exact h.sched.notMem_waiters (by rw [hp.running]; decide) o hold
      rw [Function.update_of_ne hne]
      exact h.waits u o ho hold
    · exact ⟨call, Function.update_self .., rfl⟩
  calls u hu := by
    refine hp.act.spawned_subset ?_
    by_cases hut : u = t
    · rw [hut]
      exact h.sched.spawned t hp.act.acting.current
    · rw [hp.call_eq, Function.update_of_ne hut] at hu
      exact h.calls u hu

/-- **A turn of a queue operation keeps the invariant.** -/
theorem Turn.inv {elapsed : ℕ} {call : Call α} (h : k.Inv)
    (ht : Turn elapsed k call k' reply) : k'.Inv := by
  cases ht with
  | sent _ _ hs hw =>
      obtain ⟨hinv, hwait, hsp⟩ := hw.of_inv h.sched
      exact h.of_waiters hinv (hs.rings h.rings) hs.call (fun t o _ => hwait t o) hsp
  | received _ hs hw =>
      obtain ⟨hinv, hwait, hsp⟩ := hw.of_inv h.sched
      exact h.of_waiters hinv (hs.rings h.rings) hs.call (fun t o _ => hwait t o) hsp
  | sendParked _ _ hp => exact hp.inv h
  | receiveParked _ hp => exact hp.inv h
  | sendFails _ _ => exact h
  | receiveFails _ => exact h

/-- **Every step keeps the invariant.** -/
theorem Does.inv (h : k.Inv) (hd : k.Does ev k' reply) : k'.Inv := by
  cases hd with
  | turn _ _ ht => exact ht.inv h
  | retry hc hpend _ ht => exact ht.inv (h.setCall hc hpend)
  | plain _ hp =>
      obtain ⟨ls, hpath, hl⟩ := hp.path
      refine h.of_waiters (hpath.inv h.sched) ?_ hp.call (fun t o ho ht => ?_)
        fun _ => hpath.spawned_subset
      · intro i
        rw [hp.queue]
        exact h.rings i
      · exact (hpath.mem_waiters h.sched (hl.avoids (ev.object_ne ho)) t).mp ht

/-! ### The actions of a step -/

/-- The actions of a turn of a queue operation. -/
def TurnLabels (elapsed : ℕ) (ls : List Label) : Prop :=
  ls = [] ∨ (∃ t o, o.isQueue = true ∧ ls = [.wakes t o]) ∨
    ∃ t o, o.isQueue = true ∧ ls = [.blocks t o elapsed]

lemma TurnLabels.avoids {elapsed : ℕ} {ls : List Label} (h : TurnLabels elapsed ls)
    {o : WaitObject} (ho : o.isQueue = false) : ∀ l ∈ ls, l.Avoids o := by
  have hne : ∀ o', o'.isQueue = true → o' ≠ o := by
    rintro o' ho' rfl
    rw [ho] at ho'
    cases ho'
  intro l hl
  rcases h with rfl | ⟨t, o', ho', rfl⟩ | ⟨t, o', ho', rfl⟩
  · cases hl
  · rw [List.mem_singleton.mp hl]
    exact hne o' ho'
  · rw [List.mem_singleton.mp hl]
    exact hne o' ho'

lemma WakesPeer.path {o : WaitObject} {elapsed : ℕ} (ho : o.isQueue = true)
    (hw : WakesPeer o k k') :
    ∃ ls, Sched.Path ls k.sched k'.sched ∧ TurnLabels elapsed ls := by
  rcases hw with ⟨-, heq⟩ | ⟨t, -, hact⟩
  · rw [heq]
    exact ⟨[], .nil, Or.inl rfl⟩
  · exact ⟨_, .single hact, Or.inr (Or.inl ⟨t, o, ho, rfl⟩)⟩

lemma Turn.path {elapsed : ℕ} {call : Call α} (ht : Turn elapsed k call k' reply) :
    ∃ ls, Sched.Path ls k.sched k'.sched ∧ TurnLabels elapsed ls := by
  cases ht with
  | sent _ _ _ hw => exact hw.path rfl
  | received _ _ hw => exact hw.path rfl
  | @sendParked i x _ t _ _ _ hp => exact ⟨_, .single hp.act, Or.inr (Or.inr ⟨t, _, rfl, rfl⟩)⟩
  | @receiveParked i t _ _ hp => exact ⟨_, .single hp.act, Or.inr (Or.inr ⟨t, _, rfl, rfl⟩)⟩
  | sendFails _ _ => exact ⟨[], .nil, Or.inl rfl⟩
  | receiveFails _ => exact ⟨[], .nil, Or.inl rfl⟩

/-- **The actions of a step.** -/
theorem Does.path (hd : k.Does ev k' reply) :
    ∃ ls, Sched.Path ls k.sched k'.sched ∧
      (Labels k k' ev ls ∨ (ev.isQueueOp = true ∧ TurnLabels ev.elapsed ls)) := by
  cases hd with
  | turn hcall _ ht =>
      obtain ⟨ls, hpath, hl⟩ := ht.path
      refine ⟨ls, hpath, Or.inr ⟨?_, hl⟩⟩
      cases ev <;> simp_all [Event.isQueueOp, Event.queueCall]
  | retry _ _ _ ht =>
      obtain ⟨ls, hpath, hl⟩ := ht.path
      exact ⟨ls, hpath, Or.inr ⟨rfl, hl⟩⟩
  | plain _ hp =>
      obtain ⟨ls, hpath, hl⟩ := hp.path
      exact ⟨ls, hpath, Or.inl hl⟩

/-- The sequences of actions of one step are short. -/
lemma stepLabels_of {ls : List Label}
    (h : Labels k k' ev ls ∨ (ev.isQueueOp = true ∧ TurnLabels ev.elapsed ls)) :
    StepLabels ls := by
  rcases h with h | ⟨-, rfl | ⟨t, o, -, rfl⟩ | ⟨t, o, -, rfl⟩⟩
  · cases ev with
    | yieldyi port =>
        rcases h with rfl | ⟨t, rfl⟩
        · exact .nil
        · exact .single _
    | msleepyi port ticksPerMs msec =>
        rcases h with rfl | ⟨t, rfl⟩
        · exact .nil
        · exact .single _
    | setRtThreadStartTime startTime =>
        rcases h with rfl | ⟨t, rfl⟩
        · exact .nil
        · exact .single _
    | take i port =>
        rcases h with rfl | ⟨t, rfl⟩
        · exact .nil
        · exact .single _
    | give i =>
        rcases h with ⟨rfl, -⟩ | ⟨t, rfl⟩
        · exact .nil
        · exact .single _
    | lock i port =>
        rcases h with rfl | ⟨t, rfl | ⟨-, u, rfl⟩⟩
        · exact .nil
        · exact .single _
        · exact .boost ..
    | unlock i =>
        obtain ⟨ls₁, ls₂, rfl, rfl | ⟨-, u, rfl⟩, ⟨rfl, -⟩ | ⟨t, rfl⟩⟩ := h
        · exact .nil
        · exact .single _
        · exact .single _
        · exact .restore ..
    | tick port fuel =>
        rcases h with ⟨rfl, -⟩ | ⟨rfl, -⟩
        · exact .nil
        · exact .single _
    | schedule port =>
        rw [h]
        exact .single _
    | spawnCfs t priority =>
        rw [h]
        exact .single _
    | spawnRt t timing =>
        rw [h]
        exact .single _
    | start t =>
        rw [h]
        exact .single _
    | _ =>
        rw [h]
        exact .nil
  · exact .nil
  · exact .single _
  · exact .single _

/-- Only `schedule` switches. -/
lemma isSchedule_of_switches
    (h : Labels k k' ev [.switches] ∨ (ev.isQueueOp = true ∧ TurnLabels ev.elapsed [.switches])) :
    ev.isSchedule = true := by
  rcases h with h | ⟨-, h | ⟨t, o, -, h⟩ | ⟨t, o, -, h⟩⟩
  · cases ev with
    | schedule port => rfl
    | unlock i =>
        obtain ⟨ls₁, ls₂, heq, rfl | ⟨-, u, rfl⟩, ⟨rfl, -⟩ | ⟨t, rfl⟩⟩ := h <;> simp at heq
    | _ => simp [Labels] at h
  · cases h
  · cases h
  · cases h

/-! ### Runs -/

/-- The invariant holds at the start. -/
lemma Initial.inv (h : k.Initial) : k.Inv := by
  obtain ⟨layout, periodTicks, execTicks, hboot⟩ := h.boot
  obtain ⟨hinv, -, -, -, -, hwaiters, -⟩ := Sched.boot_base hboot
  refine ⟨hinv, fun i => ?_, fun t o _ ht => ?_, fun t ht => ?_⟩
  · obtain ⟨cap, hq⟩ := h.queue_eq i
    rw [hq]
    exact ⟨[], Ring.holds_new cap⟩
  · rw [hwaiters] at ht
    cases ht
  · rw [h.call_eq] at ht
    cases ht

/-- What a step of a state with the invariant does. -/
lemma Inv.does (h : k.Inv) (hen : k.Enabled ev) (hrun : k.exec ev = .ok (k', reply)) :
    k.Does ev k' reply :=
  (exec_spec h.sched h.rings hen).value hrun

/-- What a context switch does. -/
lemma Inv.switches (h : k.Inv) {port : TimerPort} (hen : k.Enabled (.schedule port))
    (hrun : k.exec (.schedule port) = .ok (k', reply)) :
    Sched.Switches (k.sched.ktimers.elapsedTicksSinceLastInterrupt port) k.sched k'.sched := by
  obtain ⟨c, hc⟩ := Option.isSome_iff_exists.mp hen.2
  obtain ⟨s, hsched, hr⟩ := bind_eq_ok.mp (hrun : k.lift _ = _)
  obtain ⟨rfl, -⟩ := Prod.mk.inj (Except.ok.inj hr)
  exact (Sched.schedule_spec h.sched.toBase hc port).value hsched

/-- A step that is not an operation of a semaphore or mutex leaves its waiters and their keys
alone. -/
lemma Inv.waiters_of_ne (h : k.Inv) (hen : k.Enabled ev) (hrun : k.exec ev = .ok (k', reply))
    {o : WaitObject} (ho : ev.object ≠ some o) (hq : o.isQueue = false) (t : Tid) :
    (t ∈ k'.sched.waiters o ↔ t ∈ k.sched.waiters o) ∧
      (t ∈ k.sched.waiters o → k'.sched.deadlineAt t = k.sched.deadlineAt t) := by
  obtain ⟨ls, hpath, hl⟩ := (h.does hen hrun).path
  have havoids : ∀ l ∈ ls, l.Avoids o := by
    rcases hl with hl | ⟨-, hl⟩
    · exact hl.avoids ho
    · exact hl.avoids hq
  exact ⟨hpath.mem_waiters h.sched havoids t, hpath.deadlineAt_eq h.sched havoids⟩

/-- **Every step keeps the invariant**, whatever its place in the interleaving. -/
theorem Step.inv (h : k.Inv) (hs : Step k k') : k'.Inv := by
  obtain ⟨ev, reply, hen, hrun⟩ := hs
  exact (h.does hen hrun).inv h

/-- **Every reachable state satisfies the invariant.** -/
theorem reachable_inv (h : k.Reachable) : k.Inv :=
  Runs.Reach.invariant (fun _ hi => hi.inv) (fun _ _ hk hs => hs.inv hk) h

end Kernel

end Rtsched

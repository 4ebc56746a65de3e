import Mathlib.Data.Set.Card
import Rtsched.Diagnostics.TraceSpec
import Rtsched.Lib.Logs

/-!
What a run of the kernel records.

A run is a sequence of steps of the kernel, of registrations of a callback, and of resets of the
counters, in any order.  A callback that calls the kernel is left out.

* `TracedKernel.run_follows`: **the events tell which thread runs.**
* `TracedKernel.run_blocks`: **a thread has been woken once for every time it has blocked**, but for
  the last time if it is blocked still.
* `TracedKernel.run_counted`: **the counters hold what has happened since the last reset**, and the
  registered callback has been called once for each event.
-/

namespace Rtsched

open Outcome Logged Logs

variable {α φ : Type}

/-- The kernel and the variables of the tracing hooks. -/
structure TracedKernel (α φ : Type) where
  kernel : Kernel α
  trace : TraceState φ

/-- A step of the kernel, or a call of the interface of the hooks. -/
inductive TraceCall (α φ : Type)
  | exec (ev : Event α)
  | setTraceFn (traceFn : φ)
  | clearTraceFn
  | resetTraceCounters

namespace TracedKernel

/-- The events that a step records. -/
def events (x : TracedKernel α φ) : TraceCall α φ → List TraceEvent
  | .exec ev => (Trace.exec x.kernel ev).events
  | _ => []

/-- One step. -/
inductive Step : TracedKernel α φ → TraceCall α φ → TracedKernel α φ → Prop
  | exec {x : TracedKernel α φ} {ev : Event α} {k' : Kernel α} {reply : Reply α}
      (hen : x.kernel.Enabled ev) (hrun : (Trace.exec x.kernel ev).result = .ok (k', reply)) :
      Step x (.exec ev) ⟨k', (events x (.exec ev)).foldl TraceState.record x.trace⟩
  | setTraceFn {x : TracedKernel α φ} (traceFn : φ) :
      Step x (.setTraceFn traceFn) { x with trace := x.trace.setTraceFn traceFn }
  | clearTraceFn {x : TracedKernel α φ} :
      Step x .clearTraceFn { x with trace := x.trace.clearTraceFn }
  | resetTraceCounters {x : TracedKernel α φ} :
      Step x .resetTraceCounters { x with trace := x.trace.resetTraceCounters }

/-- The kernel after boot, with no callback and with all counters 0. -/
structure Init (x : TracedKernel α φ) : Prop where
  kernel : x.kernel.Initial
  trace : x.trace = ⟨none, ⟨0, 0, 0, 0⟩, []⟩

/-- The steps of a run. -/
abbrev Steps (α φ : Type) := List (TracedKernel α φ × TraceCall α φ × TracedKernel α φ)

/-- The runs. -/
abbrev Run : Steps α φ → TracedKernel α φ → Prop := Runs.Run Init Step

variable {x x' : TracedKernel α φ} {c : TraceCall α φ} {l : Steps α φ} {ev : Event α}
  {es : List TraceEvent}

/-- The kernel of a run. -/
lemma Step.kernel (h : Step x c x') : x'.kernel = x.kernel ∨ Kernel.Step x.kernel x'.kernel := by
  cases h with
  | exec hen hrun => exact Or.inr ⟨_, _, hen, (Trace.exec_result ..).symm.trans hrun⟩
  | setTraceFn traceFn => exact Or.inl rfl
  | clearTraceFn => exact Or.inl rfl
  | resetTraceCounters => exact Or.inl rfl

lemma run_inv (h : Run l x) : x.kernel.Inv := by
  refine h.reach.invariant (P := fun x => x.kernel.Inv) (fun _ hi => hi.kernel.inv) ?_
  rintro x x' hinv ⟨c, hs⟩
  rcases hs.kernel with heq | hk
  · rw [heq]
    exact hinv
  · exact hk.inv hinv

/-- What a step of the kernel records. -/
lemma Step.records (hinv : x.kernel.Inv) (h : Step x (.exec ev) x') :
    x.kernel.Records ev x'.kernel (events x (.exec ev)) := by
  cases h with
  | exec hen hrun => exact Trace.exec_records hinv hen ⟨hrun, rfl⟩

/-! ### What the events tell -/

/-- The events of a run. -/
def recorded (l : Steps α φ) : List TraceEvent := l.flatMap fun p => events p.1 p.2.1

/-- The events lead from one running thread to another: each switch leaves the thread that runs, to
another one, and only the thread that runs yields. -/
inductive Follows : Option Tid → List TraceEvent → Option Tid → Prop
  | nil {t : Option Tid} : Follows t [] t
  | contextSwitch {fromThread toThread : TraceThread} {t : Option Tid} {es : List TraceEvent}
      (hne : fromThread.thread ≠ toThread.thread) (h : Follows (some toThread.thread) es t) :
      Follows (some fromThread.thread) (.contextSwitch (some fromThread) toThread :: es) t
  | wakeup {thread : TraceThread} {t t' : Option Tid} {es : List TraceEvent} (h : Follows t es t') :
      Follows t (.wakeup thread :: es) t'
  | yield {thread : TraceThread} {elapsedTicks : ℕ} {t : Option Tid} {es : List TraceEvent}
      (h : Follows (some thread.thread) es t) :
      Follows (some thread.thread) (.yield thread elapsedTicks :: es) t

namespace Follows

variable {t t' t'' : Option Tid} {es es' : List TraceEvent}

lemma append (h : Follows t es t') (h' : Follows t' es' t'') : Follows t (es ++ es') t'' := by
  induction h with
  | nil => exact h'
  | contextSwitch hne _ ih => exact .contextSwitch hne (ih h')
  | wakeup _ ih => exact .wakeup (ih h')
  | yield _ ih => exact .yield (ih h')

/-- While no thread runs, nothing but wake-ups are recorded. -/
lemma of_none (h : Follows none es none) (t : Option Tid) : Follows t es t := by
  induction es with
  | nil => exact .nil
  | cons e es ih =>
      cases h with
      | wakeup h => exact .wakeup (ih h)

/-- Once a thread runs there is always one. -/
lemma isSome (h : Follows t es t') (ht : t.isSome = true) : t'.isSome = true := by
  induction h with
  | nil => exact ht
  | contextSwitch _ _ ih => exact ih rfl
  | wakeup _ ih => exact ih ht
  | yield _ ih => exact ih rfl

lemma eq_none (h : Follows t es none) : t = none := by
  cases t with
  | none => rfl
  | some c => cases h.isSome rfl

lemma wakeups (s : Sched) (ts : List Tid) (t : Option Tid) : Follows t (s.wakeupEvents ts) t := by
  induction ts with
  | nil => exact .nil
  | cons _ _ ih => exact .wakeup ih

end Follows

/-- Only `schedule` and the start of the scheduler select the current thread. -/
lemma labels_select {k k' : Kernel α} {ev : Event α} {ls : List Label}
    (h : Kernel.Labels k k' ev ls ∨
      (ev.isQueueOp = true ∧ Kernel.TurnLabels ev.elapsed ls))
    (hs : ev.isSchedule = false) (hst : ∀ t, ev ≠ .start t) : ∀ l ∈ ls, l.selects = false := by
  rcases h with h | ⟨-, rfl | ⟨t, o, -, rfl⟩ | ⟨t, o, -, rfl⟩⟩
  · cases ev with
    | yieldyi port => rcases h with rfl | ⟨t, rfl⟩ <;> simp [Label.selects]
    | msleepyi port ticksPerMs msec => rcases h with rfl | ⟨t, rfl⟩ <;> simp [Label.selects]
    | setRtThreadStartTime startTime => rcases h with rfl | ⟨t, rfl⟩ <;> simp [Label.selects]
    | take i port => rcases h with rfl | ⟨t, rfl⟩ <;> simp [Label.selects]
    | give i => rcases h with ⟨rfl, -⟩ | ⟨t, rfl⟩ <;> simp [Label.selects]
    | lock i port => rcases h with rfl | ⟨t, rfl | ⟨-, u, rfl⟩⟩ <;> simp [Label.selects]
    | unlock i =>
        obtain ⟨ls₁, ls₂, rfl, rfl | ⟨-, u, rfl⟩, ⟨rfl, -⟩ | ⟨t, rfl⟩⟩ := h <;>
          simp [Label.selects]
    | tick port fuel => rcases h with ⟨rfl, -⟩ | ⟨rfl, -⟩ <;> simp [Label.selects]
    | schedule port => cases hs
    | spawnCfs t priority =>
        obtain rfl : ls = [.spawns t .cfs] := h
        simp [Label.selects]
    | spawnRt t timing =>
        obtain rfl : ls = [.spawns t .rt] := h
        simp [Label.selects]
    | start t => exact absurd rfl (hst t)
    | _ =>
        obtain rfl : ls = [] := h
        simp
  · simp
  · simp [Label.selects]
  · simp [Label.selects]

/-- The idle thread stays the same, or it is created and runs. -/
lemma exec_idle {k k' : Kernel α} {ev : Event α} {reply : Reply α} (h : k.Inv)
    (hen : k.Enabled ev) (hrun : k.exec ev = .ok (k', reply)) :
    (k'.sched.idle = k.sched.idle ∧ (k.sched.current = none → k'.sched.current = none)) ∨
      (k.sched.current = none ∧ ∃ t, k'.sched.idle = some t ∧ k'.sched.current = some t) := by
  obtain ⟨ls, hpath, hl⟩ := (h.does hen hrun).path
  by_cases hs : ev.isSchedule = true
  · obtain ⟨port, rfl⟩ := Event.isSchedule_iff.mp hs
    refine Or.inl ⟨(h.switches hen hrun).idle, fun hnone => ?_⟩
    have hsome := hen.2
    rw [hnone] at hsome
    cases hsome
  · by_cases hst : ∃ t, ev = .start t
    · obtain ⟨t, rfl⟩ := hst
      refine Or.inr ⟨?_, t, ?_⟩
      · have hstarted := h.sched.started
        rw [hen.2.2] at hstarted
        simpa using hstarted.symm
      · obtain ⟨s, hspawn, heq⟩ := bind_eq_ok.mp hrun
        obtain ⟨rfl, -⟩ := Prod.mk.inj (Except.ok.inj heq)
        obtain ⟨s₁, hset, hspawn⟩ := bind_eq_ok.mp hspawn
        obtain rfl := Except.ok.inj hspawn
        refine ⟨?_, rfl⟩
        rw [Sched.setState] at hset
        split at hset
        · obtain rfl := Except.ok.inj hset
          rfl
        · cases hset
    · obtain ⟨hcur, hidle⟩ :=
        hpath.still (labels_select hl (Bool.not_eq_true _ ▸ hs) fun t ht => hst ⟨t, ht⟩)
      exact Or.inl ⟨hidle, fun hnone => hcur.trans hnone⟩

lemma Step.isSome (hinv : x.kernel.Inv) (h : Step x c x')
    (hsome : x.kernel.sched.current.isSome = true) : x'.kernel.sched.current.isSome = true := by
  rcases h.kernel with heq | ⟨ev, reply, hen, hrun⟩
  · rw [heq]
    exact hsome
  · have hd := hinv.does hen hrun
    obtain ⟨ls, hpath, -⟩ := hd.path
    rw [← (hd.inv hinv).sched.started]
    exact hpath.started (hinv.sched.started.trans hsome)

/-- The events of a step lead to the thread that runs after it. -/
lemma follows_of_records {k k' : Kernel α} {ev : Event α} {es : List TraceEvent}
    (h : k.Records ev k' es)
    (hsome : k.sched.current.isSome = true → k'.sched.current.isSome = true) :
    (k.sched.current = none → Follows none es none) ∧
      (k.sched.current.isSome = true → Follows k.sched.current es k'.sched.current) := by
  obtain ⟨_, ⟨ts, -, rfl⟩, rfl⟩ := h
  constructor
  · intro hnone
    have hy : k.sched.yieldEvents ev = [] := by
      cases ev with
      | yieldyi port => simp [Sched.yieldEvents, hnone]
      | _ => rfl
    have hs : k.sched.switchEvents k'.sched = [] := by simp [Sched.switchEvents, hnone]
    rw [hy, hs]
    exact Follows.wakeups _ _ _
  · intro hc
    obtain ⟨c, hc⟩ := Option.isSome_iff_exists.mp hc
    obtain ⟨c', hc'⟩ := Option.isSome_iff_exists.mp (hsome (hc ▸ rfl))
    have hy : Follows (some c) (k.sched.yieldEvents ev) (some c) := by
      cases ev with
      | yieldyi port =>
          simp only [Sched.yieldEvents, hc]
          split
          · exact .nil
          · change Follows (some (k.sched.traceThread c).thread) _ _
            exact .yield .nil
      | _ => exact .nil
    have hs : Follows (some c) (k.sched.switchEvents k'.sched) (some c') := by
      simp only [Sched.switchEvents, hc, hc']
      split
      · rename_i hsame
        rw [hsame]
        exact .nil
      · rename_i hne
        change Follows (some (k.sched.traceThread c).thread) _
          (some (k.sched.traceThread c').thread)
        exact .contextSwitch hne .nil
    rw [hc, hc']
    exact (hy.append hs).append (Follows.wakeups _ _ _)

/-- What a step that is not one of the kernel leaves alone. -/
lemma Step.cases_exec (h : Step x c x') :
    (∃ ev, c = .exec ev) ∨ (x'.kernel = x.kernel ∧ events x c = []) := by
  cases h with
  | exec hen hrun => exact Or.inl ⟨_, rfl⟩
  | setTraceFn traceFn => exact Or.inr ⟨rfl, rfl⟩
  | clearTraceFn => exact Or.inr ⟨rfl, rfl⟩
  | resetTraceCounters => exact Or.inr ⟨rfl, rfl⟩

lemma recorded_concat : recorded (l ++ [(x, c, x')]) = recorded l ++ events x c := by
  simp [recorded]

/-- **The events tell which thread runs**: they lead from the idle thread to the current one. -/
theorem run_follows (h : Run l x) :
    Follows x.kernel.sched.idle (recorded l) x.kernel.sched.current := by
  induction h with
  | @start x hi =>
      obtain ⟨layout, periodTicks, execTicks, hboot⟩ := hi.kernel.boot
      obtain ⟨hinv, hcur, hspawned, -⟩ := Sched.boot_base hboot
      have hidle : x.kernel.sched.idle = none := by
        by_contra hne
        obtain ⟨i, hi⟩ := Option.ne_none_iff_exists'.mp hne
        have hmem := (hinv.idle i hi).2
        rw [hspawned] at hmem
        cases hmem
      rw [hidle, hcur]
      exact .nil
  | @step l x x' c h hs ih =>
      have hinv := run_inv h
      rw [recorded_concat]
      rcases hs.cases_exec with ⟨ev, rfl⟩ | ⟨hk, hnil⟩
      · obtain ⟨hnone, hsome⟩ := follows_of_records (hs.records hinv) (hs.isSome hinv)
        cases hs with
        | exec hen hrun =>
            have hcases := exec_idle hinv hen ((Trace.exec_result ..).symm.trans hrun)
            cases hcur : x.kernel.sched.current with
            | none =>
                rw [hcur] at ih
                have hidle := ih.eq_none
                rw [hidle] at ih
                have hall := ih.append (hnone hcur)
                rcases hcases with ⟨hsame, hcur'⟩ | ⟨-, t, hidle', hcur'⟩
                · rw [hsame, hidle, hcur' hcur]
                  exact hall
                · rw [hidle', hcur']
                  exact hall.of_none _
            | some c =>
                rcases hcases with ⟨hsame, -⟩ | ⟨hno, -⟩
                · rw [hsame]
                  exact ih.append (hsome (hcur ▸ rfl))
                · rw [hcur] at hno
                  cases hno
      · rw [hk, hnil, List.append_nil]
        exact ih

/-! ### Blocking and waking -/

/-- The event is the wake-up of the thread. -/
def wakes (t : Tid) : TraceEvent → Bool
  | .wakeup thread => thread.thread = t
  | _ => false

/-- The thread is blocked. -/
def blocked (t : Tid) (x : TracedKernel α φ) : Bool := (x.kernel.sched.state t).isBlocked

/-- The number of times that a thread has blocked in a run. -/
def blocks (t : Tid) (l : Steps α φ) : ℕ := l.countP fun p => !blocked t p.1 && blocked t p.2.2

/-- A step that unblocks a thread records its wake-up, once, and no other step does. -/
lemma countP_wakes {k k' : Kernel α} {ev : Event α} {es : List TraceEvent}
    (h : k.Records ev k' es) (t : Tid) : es.countP (wakes t) =
      if (k.sched.state t).isBlocked = true ∧ (k'.sched.state t).isBlocked = false then 1
      else 0 := by
  obtain ⟨_, ⟨ts, hts, rfl⟩, rfl⟩ := h
  have hy : (k.sched.yieldEvents ev).countP (wakes t) = 0 := by
    cases ev with
    | yieldyi port =>
        simp only [Sched.yieldEvents]
        split
        · split <;> rfl
        · rfl
    | _ => rfl
  have hs : (k.sched.switchEvents k'.sched).countP (wakes t) = 0 := by
    simp only [Sched.switchEvents]
    split
    · split <;> rfl
    · rfl
  have hw : (k.sched.wakeupEvents ts).countP (wakes t) = ts.count t := by
    rw [Sched.wakeupEvents, List.countP_map, List.count]
    rfl
  rw [List.countP_append, List.countP_append, hy, hs, hw, hts.nodup.count]
  simp only [hts.mem, Nat.zero_add]

/-- **Each wake-up that is recorded ends one time that the thread has been blocked.** -/
theorem run_blocks (h : Run l x) (t : Tid) :
    blocks t l = (recorded l).countP (wakes t) + if blocked t x = true then 1 else 0 := by
  induction h with
  | @start x hi =>
      have hno : blocked t x = false := by
        obtain ⟨layout, periodTicks, execTicks, hboot⟩ := hi.kernel.boot
        obtain ⟨hinv, -, hspawned, -⟩ := Sched.boot_base hboot
        rw [blocked, (hinv.fresh t (by rw [hspawned]; exact List.not_mem_nil)).2]
        rfl
      rw [hno]
      rfl
  | @step l x x' c h hs ih =>
      have hstep : (events x c).countP (wakes t) =
          if blocked t x = true ∧ blocked t x' = false then 1 else 0 := by
        rcases hs.cases_exec with ⟨ev, rfl⟩ | ⟨hk, hnil⟩
        · exact countP_wakes (hs.records (run_inv h)) t
        · rw [hnil, blocked, blocked, hk, if_neg]
          · rfl
          · rintro ⟨hb, hb'⟩
            rw [hb] at hb'
            cases hb'
      rw [recorded_concat, List.countP_append, hstep, blocks, List.countP_append]
      rw [blocks] at ih
      rw [ih]
      cases hx : blocked t x <;> cases hx' : blocked t x' <;> simp [hx, hx']

/-! ### The counters and the callback -/

/-- The call sets the counters to 0. -/
def resets : TraceCall α φ → Bool
  | .resetTraceCounters => true
  | _ => false

/-- The sum of a quantity over the steps since the last reset. -/
def tally (w : TracedKernel α φ → TraceCall α φ → TracedKernel α φ → ℕ) (l : Steps α φ) : ℕ :=
  (since (fun p => resets p.2.1) (fun p => some (w p.1 p.2.1 p.2.2)) l).sum

/-- A thread has left the processor to another. -/
def switches (x : TracedKernel α φ) (_ : TraceCall α φ) (x' : TracedKernel α φ) : ℕ :=
  if x.kernel.sched.current.isSome ∧ x'.kernel.sched.current ≠ x.kernel.sched.current then 1 else 0

/-- The number of the threads that a step has unblocked. -/
noncomputable def unblocked (x : TracedKernel α φ) (_ : TraceCall α φ) (x' : TracedKernel α φ) :
    ℕ :=
  {t | blocked t x = true ∧ blocked t x' = false}.ncard

/-- A thread other than the idle thread has called `yieldyi`. -/
def yields (x : TracedKernel α φ) (c : TraceCall α φ) (_ : TracedKernel α φ) : ℕ :=
  match c with
  | .exec (.yieldyi _) =>
      if x.kernel.sched.current.any (x.kernel.sched.kind · ≠ .idle) then 1 else 0
  | _ => 0

/-- The call takes the callback away. -/
def clears : TraceCall α φ → Bool
  | .clearTraceFn => true
  | _ => false

/-- The callback that the call registers. -/
def registers : TraceCall α φ → Option φ
  | .setTraceFn traceFn => some traceFn
  | _ => none

/-- The counters and the calls of the callback agree with the steps of a run. -/
structure Counted (l : Steps α φ) (s : TraceState φ) : Prop where
  contextSwitches : s.counters.contextSwitches = min u32Max (tally switches l)
  wakeups : s.counters.wakeups = min u32Max (tally unblocked l)
  yields : s.counters.yields = min u32Max (tally yields l)
  deadlineMisses : s.counters.deadlineMisses = 0
  traceFn : s.traceFn = (since (fun p => clears p.2.1) (fun p => registers p.2.1) l).getLast?
  calls : s.calls =
    l.flatMap fun p => p.1.trace.traceFn.toList.flatMap fun f => (events p.1 p.2.1).map (f, ·)

lemma increment_min (n : ℕ) : increment (min u32Max n) = min u32Max (n + 1) := by
  rw [increment]
  split <;> omega

/-- A counter that one kind of events increments. -/
lemma foldl_counter (counter : TraceCounters → ℕ) (hits : TraceEvent → Bool)
    (hcount : ∀ c e, counter (c.count e) =
      if hits e = true then increment (counter c) else counter c)
    (es : List TraceEvent) {s : TraceState φ} {n : ℕ} (hs : counter s.counters = min u32Max n) :
    counter (es.foldl TraceState.record s).counters = min u32Max (n + es.countP hits) := by
  induction es generalizing s n with
  | nil => exact hs
  | cons e es ih =>
      have hrecord : (s.record e).counters = s.counters.count e := by
        rw [TraceState.record, TraceState.emit]
        split <;> rfl
      rw [List.foldl_cons, List.countP_cons]
      split
      · rename_i he
        rw [ih (n := n + 1) (by rw [hrecord, hcount, if_pos he, hs, increment_min])]
        congr 1
        omega
      · rename_i he
        exact ih (by rw [hrecord, hcount, if_neg he, hs])

/-- The callback, and its calls. -/
lemma foldl_calls (es : List TraceEvent) (s : TraceState φ) :
    (es.foldl TraceState.record s).traceFn = s.traceFn ∧
      (es.foldl TraceState.record s).calls =
        s.calls ++ s.traceFn.toList.flatMap fun f => es.map (f, ·) := by
  induction es generalizing s with
  | nil => simp
  | cons e es ih =>
      obtain ⟨hfn, hcalls⟩ := ih (s.record e)
      rw [List.foldl_cons, hfn, hcalls]
      cases hf : s.traceFn <;> simp [TraceState.record, TraceState.emit, hf]

def isContextSwitch : TraceEvent → Bool
  | .contextSwitch _ _ => true
  | _ => false

def isDeadlineMiss : TraceEvent → Bool
  | .deadlineMiss _ _ _ => true
  | _ => false

def isWakeup : TraceEvent → Bool
  | .wakeup _ => true
  | _ => false

def isYield : TraceEvent → Bool
  | .yield _ _ => true
  | _ => false

/-- How many events of each kind a step records. -/
lemma countP_events (h : x.kernel.Records ev x'.kernel es)
    (hsome : x.kernel.sched.current.isSome = true → x'.kernel.sched.current.isSome = true) :
    es.countP isContextSwitch = switches x (.exec ev) x' ∧
      es.countP isWakeup = unblocked x (.exec ev) x' ∧
      es.countP isYield = yields x (.exec ev) x' ∧ es.countP isDeadlineMiss = 0 := by
  obtain ⟨_, ⟨ts, hts, rfl⟩, rfl⟩ := h
  have hy : x.kernel.sched.yieldEvents ev = [] ∧ yields x (.exec ev) x' = 0 ∨
      ∃ thread elapsedTicks, x.kernel.sched.yieldEvents ev = [.yield thread elapsedTicks] ∧
        yields x (.exec ev) x' = 1 := by
    cases ev with
    | yieldyi port =>
        simp only [Sched.yieldEvents, yields]
        cases x.kernel.sched.current with
        | none => exact Or.inl ⟨rfl, rfl⟩
        | some t =>
            by_cases hk : x.kernel.sched.kind t = .idle
            · exact Or.inl ⟨if_pos hk, by simp [hk]⟩
            · exact Or.inr ⟨_, _, if_neg hk, by simp [hk]⟩
    | _ => exact Or.inl ⟨rfl, rfl⟩
  have hs : x.kernel.sched.switchEvents x'.kernel.sched = [] ∧ switches x (.exec ev) x' = 0 ∨
      ∃ fromThread toThread,
        x.kernel.sched.switchEvents x'.kernel.sched = [.contextSwitch fromThread toThread] ∧
        switches x (.exec ev) x' = 1 := by
    simp only [Sched.switchEvents, switches]
    cases hc : x.kernel.sched.current with
    | none => exact Or.inl ⟨rfl, rfl⟩
    | some c =>
        obtain ⟨c', hc'⟩ := Option.isSome_iff_exists.mp (hsome (hc ▸ rfl))
        rw [hc']
        by_cases hsame : c = c'
        · exact Or.inl ⟨if_pos hsame, by simp [hsame]⟩
        · exact Or.inr ⟨_, _, if_neg hsame, by simp [eq_comm, hsame]⟩
  have hw : ∀ p : TraceEvent → Bool, (∀ thread, p (.wakeup thread) = false) →
      (x.kernel.sched.wakeupEvents ts).countP p = 0 := by
    intro p hp
    rw [Sched.wakeupEvents, List.countP_map]
    exact List.countP_eq_zero.mpr fun t _ => by simp [hp]
  have hwake : (x.kernel.sched.wakeupEvents ts).countP isWakeup = unblocked x (.exec ev) x' := by
    have hset : {t | blocked t x = true ∧ blocked t x' = false} = (ts.toFinset : Set Tid) := by
      ext t
      simpa [blocked] using (hts.mem t).symm
    rw [unblocked, hset, Set.ncard_coe_finset, List.toFinset_card_of_nodup hts.nodup,
      Sched.wakeupEvents, List.countP_map]
    exact List.countP_eq_length.mpr fun t _ => rfl
  simp only [List.countP_append]
  rw [hw isContextSwitch fun _ => rfl, hw isYield fun _ => rfl, hw isDeadlineMiss fun _ => rfl,
    hwake]
  rcases hy with ⟨hy, hy'⟩ | ⟨thread, elapsedTicks, hy, hy'⟩ <;>
    rcases hs with ⟨hs, hs'⟩ | ⟨fromThread, toThread, hs, hs'⟩ <;>
    simp [hy, hy', hs, hs', isContextSwitch, isWakeup, isYield, isDeadlineMiss]

lemma tally_concat (w : TracedKernel α φ → TraceCall α φ → TracedKernel α φ → ℕ) :
    tally w (l ++ [(x, c, x')]) = if resets c = true then 0 else tally w l + w x c x' := by
  rw [tally, since_concat]
  split
  · rfl
  · simp [tally]

/-- The counters after a step that does not reset them. -/
lemma Step.counts (hinv : x.kernel.Inv) (h : Step x c x') (hres : resets c = false) :
    x'.trace.counters = ((events x c).foldl TraceState.record x.trace).counters ∧
      (events x c).countP isContextSwitch = switches x c x' ∧
      (events x c).countP isWakeup = unblocked x c x' ∧
      (events x c).countP isYield = yields x c x' ∧ (events x c).countP isDeadlineMiss = 0 := by
  have hidle : ∀ y : TracedKernel α φ, y.kernel = x.kernel →
      0 = switches x c y ∧ 0 = unblocked x c y := by
    intro y hy
    rw [switches, unblocked, hy]
    refine ⟨by simp, ?_⟩
    have hempty : {t | blocked t x = true ∧ blocked t y = false} = ∅ := by
      ext t
      simp [blocked, hy]
    rw [hempty, Set.ncard_empty]
  have hsome := h.isSome hinv
  cases h with
  | @exec ev k' reply hen hrun =>
      exact ⟨rfl, countP_events (Trace.exec_records hinv hen ⟨hrun, rfl⟩) hsome⟩
  | setTraceFn traceFn =>
      exact ⟨rfl, (hidle _ rfl).1, (hidle _ rfl).2, rfl, rfl⟩
  | clearTraceFn => exact ⟨rfl, (hidle _ rfl).1, (hidle _ rfl).2, rfl, rfl⟩
  | resetTraceCounters => cases hres

/-- The callback after a step, and the calls of callbacks in it. -/
lemma Step.calls (h : Step x c x') :
    x'.trace.traceFn = (if clears c = true then none
      else match registers c with
        | some traceFn => some traceFn
        | none => x.trace.traceFn) ∧
    x'.trace.calls =
      x.trace.calls ++ x.trace.traceFn.toList.flatMap fun f => (events x c).map (f, ·) := by
  cases h with
  | exec hen hrun => exact foldl_calls _ _
  | setTraceFn traceFn => exact ⟨rfl, by simp [TraceState.setTraceFn, events]⟩
  | clearTraceFn => exact ⟨rfl, by simp [TraceState.clearTraceFn, events]⟩
  | resetTraceCounters => exact ⟨rfl, by simp [TraceState.resetTraceCounters, events]⟩

/-- **The counters hold what has happened since the last reset**, up to their largest value: the
changes of the running thread, the threads that were unblocked, and the yields; a kernel that runs
on has missed no deadline.  Every callback was called once for each event while it was
registered. -/
theorem run_counted (h : Run l x) : Counted l x.trace := by
  induction h with
  | @start x hi =>
      rw [hi.trace]
      exact ⟨rfl, rfl, rfl, rfl, rfl, rfl⟩
  | @step l x x' c h hs ih =>
      have hinv := run_inv h
      obtain ⟨hfn, hcalls⟩ := hs.calls
      have htrace : x'.trace.traceFn =
            (since (fun p => clears p.2.1) (fun p => registers p.2.1)
              (l ++ [(x, c, x')])).getLast? ∧
          x'.trace.calls = (l ++ [(x, c, x')]).flatMap fun p =>
            p.1.trace.traceFn.toList.flatMap fun f => (events p.1 p.2.1).map (f, ·) := by
        constructor
        · rw [hfn, since_concat]
          split
          · rfl
          · cases registers c <;> simp [ih.traceFn]
        · rw [hcalls, ih.calls, List.flatMap_append]
          simp
      cases hres : resets c with
      | true =>
          cases hs with
          | resetTraceCounters =>
              exact ⟨by rw [tally_concat, if_pos hres]; rfl, by rw [tally_concat, if_pos hres]; rfl,
                by rw [tally_concat, if_pos hres]; rfl, rfl, htrace.1, htrace.2⟩
          | _ => cases hres
      | false =>
          obtain ⟨heq, hcs, hw, hy, hd⟩ := hs.counts hinv hres
          have hne : ¬ resets c = true := by simp [hres]
          refine ⟨?_, ?_, ?_, ?_, htrace.1, htrace.2⟩
          · rw [tally_concat, if_neg hne, heq, ← hcs]
            exact foldl_counter _ isContextSwitch (by rintro c (_ | _ | _ | _) <;> rfl) _
              ih.contextSwitches
          · rw [tally_concat, if_neg hne, heq, ← hw]
            exact foldl_counter _ isWakeup (by rintro c (_ | _ | _ | _) <;> rfl) _ ih.wakeups
          · rw [tally_concat, if_neg hne, heq, ← hy]
            exact foldl_counter _ isYield (by rintro c (_ | _ | _ | _) <;> rfl) _ ih.yields
          · have hzero := foldl_counter (n := 0) _ isDeadlineMiss
              (by rintro c (_ | _ | _ | _) <;> rfl) (events x c) ih.deadlineMisses
            rw [hd] at hzero
            rw [heq]
            exact hzero

/-! ### A run in which a thread sleeps -/

/-- The state after a step. -/
def next (x : TracedKernel α φ) : TraceCall α φ → Option (TracedKernel α φ)
  | .exec ev =>
      if x.kernel.Enabled ev then
        (Trace.exec x.kernel ev).result.toOption.map fun r =>
          ⟨r.1, (events x (.exec ev)).foldl TraceState.record x.trace⟩
      else none
  | .setTraceFn traceFn => some { x with trace := x.trace.setTraceFn traceFn }
  | .clearTraceFn => some { x with trace := x.trace.clearTraceFn }
  | .resetTraceCounters => some { x with trace := x.trace.resetTraceCounters }

lemma next_step (h : next x c = some x') : Step x c x' := by
  cases c with
  | exec ev =>
      rw [next] at h
      split at h
      · rename_i hen
        obtain ⟨⟨k', reply⟩, hr, rfl⟩ := Option.map_eq_some_iff.mp h
        refine Step.exec hen (?_ : _ = Except.ok (k', reply))
        cases hres : (Trace.exec x.kernel ev).result with
        | error f => simp [hres, Except.toOption] at hr
        | ok r => simpa [hres, Except.toOption] using hr
      · cases h
  | setTraceFn traceFn =>
      obtain rfl := Option.some.inj h
      exact .setTraceFn traceFn
  | clearTraceFn =>
      obtain rfl := Option.some.inj h
      exact .clearTraceFn
  | resetTraceCounters =>
      obtain rfl := Option.some.inj h
      exact .resetTraceCounters

/-- The run of given steps from boot; the callbacks are numbers. -/
def trial (cs : List (TraceCall ℕ ℕ)) : Option (Steps ℕ ℕ × TracedKernel ℕ ℕ) := do
  let k ← Kernel.trial Kernel.next []
  Runs.Run.play next ⟨k, ⟨none, ⟨0, 0, 0, 0⟩, []⟩⟩ cs

lemma trial_run {cs : List (TraceCall ℕ ℕ)} {r : Steps ℕ ℕ × TracedKernel ℕ ℕ}
    (h : trial cs = some r) : Run r.1 r.2 := by
  simp only [trial, Kernel.trial, List.foldlM_nil, Option.bind_eq_bind,
    Option.bind_eq_some_iff] at h
  obtain ⟨k, ⟨k₀, hboot, hk⟩, hrun⟩ := h
  obtain rfl := Option.some.inj hk
  exact .of_play (fun _ _ _ => next_step) ⟨Kernel.booted_initial hboot, rfl⟩ hrun

/-- A thread runs and then sleeps for 100 ticks; while it sleeps the counters are reset and the
callback is taken away. -/
def sleepTrial : Option (Steps ℕ ℕ × TracedKernel ℕ ℕ) := trial
  [.exec (.spawnCfs 1 10), .exec (.start 0), .setTraceFn 7,
    .exec (.tick ⟨some 99, some 0⟩ 8), .exec (.schedule ⟨some 99, some 0⟩),
    .exec (.msleepyi ⟨some 399, some 349⟩ 1 100), .exec (.schedule ⟨some 399, some 349⟩),
    .resetTraceCounters, .clearTraceFn, .exec (.tick ⟨some 119, some 0⟩ 8)]

lemma sleepTrial_eq : ∃ r, sleepTrial = some r ∧ recorded r.1 =
      [.contextSwitch (some ⟨0, false⟩) ⟨1, true⟩, .contextSwitch (some ⟨1, true⟩) ⟨0, false⟩,
        .wakeup ⟨1, true⟩] ∧
    r.2.kernel.sched.idle = some 0 ∧ r.2.kernel.sched.current = some 0 ∧
    r.2.trace.calls.length = 2 ∧ r.2.trace.counters = ⟨0, 0, 1, 0⟩ := by
  have htest : sleepTrial.any (fun r => decide (recorded r.1 =
        [.contextSwitch (some ⟨0, false⟩) ⟨1, true⟩, .contextSwitch (some ⟨1, true⟩) ⟨0, false⟩,
          .wakeup ⟨1, true⟩]) && decide (r.2.kernel.sched.idle = some 0) &&
      decide (r.2.kernel.sched.current = some 0) && decide (r.2.trace.calls.length = 2) &&
      decide (r.2.trace.counters = ⟨0, 0, 1, 0⟩)) = true := by decide +kernel
  obtain ⟨r, hr, htest⟩ := (Option.any_eq_true ..).mp htest
  simp only [Bool.and_eq_true, decide_eq_true_eq] at htest
  obtain ⟨⟨⟨⟨hrec, hidle⟩, hcur⟩, hcalls⟩, hcounters⟩ := htest
  exact ⟨r, hr, hrec, hidle, hcur, hcalls, hcounters⟩

/-- The idle thread runs before and after the thread that sleeps. -/
theorem run_follows_sleep : ∃ r, sleepTrial = some r ∧
    Follows (some 0) [.contextSwitch (some ⟨0, false⟩) ⟨1, true⟩,
      .contextSwitch (some ⟨1, true⟩) ⟨0, false⟩, .wakeup ⟨1, true⟩] (some 0) := by
  obtain ⟨r, hr, hrec, hidle, hcur, -⟩ := sleepTrial_eq
  have h := run_follows (trial_run hr)
  rw [hrec, hidle, hcur] at h
  exact ⟨r, hr, h⟩

/-- The thread that sleeps has blocked once. -/
theorem run_blocks_sleep : ∃ r, sleepTrial = some r ∧ blocked 1 r.2 = false ∧ blocks 1 r.1 = 1 := by
  obtain ⟨r, hr, hrec, -⟩ := sleepTrial_eq
  have htest : sleepTrial.all (fun r => !blocked 1 r.2) = true := by decide +kernel
  have hno : blocked 1 r.2 = false := by simpa [hr] using htest
  have h := run_blocks (trial_run hr) 1
  rw [hrec, hno] at h
  exact ⟨r, hr, hno, h⟩

/-- Its wake-up is the only event since the counters were reset. -/
theorem run_counted_sleep : ∃ r, sleepTrial = some r ∧ Counted r.1 r.2.trace ∧
    r.2.trace.counters = ⟨0, 0, 1, 0⟩ ∧ r.2.trace.calls.length = 2 := by
  obtain ⟨r, hr, -, -, -, hcalls, hcounters⟩ := sleepTrial_eq
  exact ⟨r, hr, run_counted (trial_run hr), hcounters, hcalls⟩

end TracedKernel

end Rtsched

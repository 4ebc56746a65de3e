import Rtsched.Arch.IsrTiming
import Rtsched.Lib.Logs
import Rtsched.Lib.Runs

/-!
What the feature `sched-isr-timing` measures over a run: `mark_sched_tick_to_pendsv_start`, the
arming by `handle_sched_tick`, the epilogue of PendSV, and the resets of `src/diagnostics/trace.rs`,
in any order.

* `TimingStep`: one of these calls, or anything else that leaves the variables alone.
* `run_measured`: **the variables hold the statistics of the samples since the last reset**; the
  minimum cannot tell a sample of 0 cycles from no sample, so that such a sample resets it.
-/

namespace Rtsched

open Blocks Thumb Logs

section Hooks

variable (addr : Symbol → Word) (m : Mem)

/-- `mark_sched_tick_to_pendsv_start`. -/
def markSchedTickToPendsvStart : Mem :=
  let startCycle := m (addr .dwtCyccnt)
  let m := Function.update m (addr .enabled) 1
  Function.update m (addr .startCycle) startCycle

/-- `arm_sched_tick_to_pendsv_sample`. -/
def armSchedTickToPendsvSample : Mem :=
  if m (addr .enabled) ≠ 0 then Function.update m (addr .armed) 1 else m

/-- `record_last_and_max`. -/
def recordLastAndMax (m : Mem) (last max ticks : Word) : Mem :=
  let m := Function.update m last ticks
  if m max < ticks then Function.update m max ticks else m

/-- `record_sched_tick_ktimer_timing`. -/
def recordSchedTickKtimerTiming (advanceKtimersTicks dispatchExpiredKtimerTicks : Word) : Mem :=
  let m := recordLastAndMax m (addr .advanceLastTicks) (addr .advanceMaxTicks) advanceKtimersTicks
  recordLastAndMax m (addr .dispatchLastTicks) (addr .dispatchMaxTicks) dispatchExpiredKtimerTicks

/-- Write 0 to some variables, one after the other. -/
def clear (vs : List Symbol) : Mem := vs.foldl (fun m v => Function.update m (addr v) 0) m

/-- `reset_sched_tick_to_pendsv_timing`. -/
def resetSchedTickToPendsvTiming : Mem :=
  clear addr m [.armed, .startCycle, .lastTicks, .minTicks, .maxTicks, .samples,
    .advanceLastTicks, .advanceMaxTicks, .dispatchLastTicks, .dispatchMaxTicks]

/-- `reset_sched_tick_to_pendsv_min_ticks`. -/
def resetSchedTickToPendsvMinTicks : Mem := clear addr m [.minTicks]

/-- `reset_sched_tick_to_pendsv_max_ticks`. -/
def resetSchedTickToPendsvMaxTicks : Mem := clear addr m [.maxTicks]

/-- `reset_sched_tick_to_pendsv_min_max_ticks`. -/
def resetSchedTickToPendsvMinMaxTicks : Mem := clear addr m [.minTicks, .maxTicks]

end Hooks

/-- `SchedIsrTiming`. -/
structure SchedIsrTiming where
  samples : Word
  lastTicks : Word
  minTicks : Word
  maxTicks : Word
  advanceKtimersLastTicks : Word
  advanceKtimersMaxTicks : Word
  dispatchExpiredKtimerLastTicks : Word
  dispatchExpiredKtimerMaxTicks : Word
  deriving DecidableEq

/-- `sched_tick_to_pendsv_timing`. -/
def schedTickToPendsvTiming (addr : Symbol → Word) (m : Mem) : SchedIsrTiming where
  samples := m (addr .samples)
  lastTicks := m (addr .lastTicks)
  minTicks := m (addr .minTicks)
  maxTicks := m (addr .maxTicks)
  advanceKtimersLastTicks := m (addr .advanceLastTicks)
  advanceKtimersMaxTicks := m (addr .advanceMaxTicks)
  dispatchExpiredKtimerLastTicks := m (addr .dispatchLastTicks)
  dispatchExpiredKtimerMaxTicks := m (addr .dispatchMaxTicks)

/-! ### Runs -/

/-- What happens to the variables in a step. -/
inductive TimingEvent
  | mark (cycle : Word)
  | arm
  | sample (ticks : Word)
  | record (advance dispatch : Word)
  | reset
  | resetMin
  | resetMax
  | resetMinMax
  | none
  deriving DecidableEq

namespace TimingEvent

@[simp] def ticks : TimingEvent → Option Word
  | sample ticks => some ticks
  | _ => .none

@[simp] def cycle : TimingEvent → Option Word
  | mark cycle => some cycle
  | _ => .none

@[simp] def advance : TimingEvent → Option Word
  | record advance _ => some advance
  | _ => .none

@[simp] def dispatch : TimingEvent → Option Word
  | record _ dispatch => some dispatch
  | _ => .none

@[simp] def arms : TimingEvent → Option Unit
  | arm => some ()
  | _ => .none

@[simp] def resetsAll (e : TimingEvent) : Bool := e = reset

@[simp] def resetsMax (e : TimingEvent) : Bool := e = reset ∨ e = resetMax ∨ e = resetMinMax

@[simp] def resetsMin (e : TimingEvent) : Bool :=
  e = reset ∨ e = resetMin ∨ e = resetMinMax ∨ e = sample 0

/-- A sample and a reset disarm. -/
@[simp] def disarms (e : TimingEvent) : Bool := e = reset ∨ e.ticks.isSome

end TimingEvent

/-- The variables of the feature. -/
def timingSymbols : List Symbol :=
  [.enabled, .armed, .startCycle, .lastTicks, .minTicks, .maxTicks, .samples, .advanceLastTicks,
    .advanceMaxTicks, .dispatchLastTicks, .dispatchMaxTicks]

variable (addr : Symbol → Word)

/-- One step: a call of a hook, PendSV, or anything else. -/
inductive TimingStep : Mem → TimingEvent → Mem → Prop
  | mark {m : Mem} :
      TimingStep m (.mark (m (addr .dwtCyccnt))) (markSchedTickToPendsvStart addr m)
  | arm {m : Mem} : TimingStep m (if m (addr .enabled) ≠ 0 then .arm else .none)
      (armSchedTickToPendsvSample addr m)
  | pendSV {s : Cpu} (call : Symbol → Cpu → Cpu) :
      TimingStep s.mem (if s.mem (addr .armed) ≠ 0 then
          .sample (s.mem (addr .dwtCyccnt) - s.mem (addr .startCycle)) else .none)
        (exec addr call (schedIsrTiming ++ [.bx .lr]) none s).mem
  | record {m : Mem} (advance dispatch : Word) : TimingStep m (.record advance dispatch)
      (recordSchedTickKtimerTiming addr m advance dispatch)
  | reset {m : Mem} : TimingStep m .reset (resetSchedTickToPendsvTiming addr m)
  | resetMin {m : Mem} : TimingStep m .resetMin (resetSchedTickToPendsvMinTicks addr m)
  | resetMax {m : Mem} : TimingStep m .resetMax (resetSchedTickToPendsvMaxTicks addr m)
  | resetMinMax {m : Mem} : TimingStep m .resetMinMax (resetSchedTickToPendsvMinMaxTicks addr m)
  | other {m m' : Mem} (h : ∀ v ∈ timingSymbols, m' (addr v) = m (addr v)) :
      TimingStep m .none m'

/-- All variables are 0. -/
def TimingInit (m : Mem) : Prop := ∀ v ∈ timingSymbols, m (addr v) = 0

open TimingEvent in
/-- The numbers are the statistics of the events. -/
structure Reports (l : List TimingEvent) (r : SchedIsrTiming) : Prop where
  samples : r.samples = BitVec.ofNat 32 (since resetsAll ticks l).length
  lastTicks : r.lastTicks = (since resetsAll ticks l).getLastD 0
  minTicks : Least r.minTicks (since resetsMin ticks l)
  maxTicks : Largest r.maxTicks (since resetsMax ticks l)
  advanceLast : r.advanceKtimersLastTicks = (since resetsAll advance l).getLastD 0
  advanceMax : Largest r.advanceKtimersMaxTicks (since resetsAll advance l)
  dispatchLast : r.dispatchExpiredKtimerLastTicks = (since resetsAll dispatch l).getLastD 0
  dispatchMax : Largest r.dispatchExpiredKtimerMaxTicks (since resetsAll dispatch l)

open TimingEvent in
/-- The variables hold the statistics of the events, and `sched_tick_to_pendsv_timing` returns
them. -/
structure Measured (l : List TimingEvent) (m : Mem) : Prop where
  enabled : m (addr .enabled) ≠ 0 ↔ ∃ c, .mark c ∈ l
  armed : m (addr .armed) ≠ 0 ↔ since disarms arms l ≠ []
  startCycle : m (addr .startCycle) = (since resetsAll cycle l).getLastD 0
  timing : Reports l (schedTickToPendsvTiming addr m)

variable {addr}

open TimingEvent in
/-- What an event does to the variables. -/
structure Effect (addr : Symbol → Word) (m : Mem) (e : TimingEvent) (m' : Mem) : Prop where
  enabled : m' (addr .enabled) = if e.cycle.isSome then 1 else m (addr .enabled)
  armed : m' (addr .armed) =
    if e.disarms then 0 else if e.arms.isSome then 1 else m (addr .armed)
  startCycle : m' (addr .startCycle) = keepLast resetsAll cycle e (m (addr .startCycle))
  samples : m' (addr .samples) =
    if e.resetsAll then 0 else if e.ticks.isSome then m (addr .samples) + 1 else m (addr .samples)
  lastTicks : m' (addr .lastTicks) = keepLast resetsAll ticks e (m (addr .lastTicks))
  maxTicks : m' (addr .maxTicks) = keepLargest resetsMax ticks e (m (addr .maxTicks))
  minTicks : m' (addr .minTicks) = keepLeast resetsMin ticks e (m (addr .minTicks))
  advanceLast : m' (addr .advanceLastTicks) =
    keepLast resetsAll advance e (m (addr .advanceLastTicks))
  advanceMax : m' (addr .advanceMaxTicks) =
    keepLargest resetsAll advance e (m (addr .advanceMaxTicks))
  dispatchLast : m' (addr .dispatchLastTicks) =
    keepLast resetsAll dispatch e (m (addr .dispatchLastTicks))
  dispatchMax : m' (addr .dispatchMaxTicks) =
    keepLargest resetsAll dispatch e (m (addr .dispatchMaxTicks))

section Effect

variable (haddr : Function.Injective addr) {m m' : Mem} {e : TimingEvent}

include haddr

omit haddr in
lemma recordLastAndMax_apply {last max : Word} (hne : last ≠ max) (ticks x : Word) :
    recordLastAndMax m last max ticks x =
      if x = max then if m max < ticks then ticks else m max
      else if x = last then ticks else m x := by
  unfold recordLastAndMax
  rw [Function.update_of_ne hne.symm]
  split_ifs with hlt hx hx hx hx <;> simp [*, hne.symm]

lemma effect_mark :
    Effect addr m (.mark (m (addr .dwtCyccnt))) (markSchedTickToPendsvStart addr m) := by
  constructor <;> simp [markSchedTickToPendsvStart, haddr.eq_iff]

lemma effect_arm : Effect addr m (if m (addr .enabled) ≠ 0 then .arm else .none)
    (armSchedTickToPendsvSample addr m) := by
  unfold armSchedTickToPendsvSample
  split <;> constructor <;> simp [haddr.eq_iff]

lemma effect_record (a d : Word) :
    Effect addr m (.record a d) (recordSchedTickKtimerTiming addr m a d) := by
  constructor <;>
    simp [recordSchedTickKtimerTiming, recordLastAndMax_apply, haddr.eq_iff, haddr.ne_iff]

lemma effect_reset : Effect addr m .reset (resetSchedTickToPendsvTiming addr m) := by
  constructor <;> simp [resetSchedTickToPendsvTiming, clear, haddr.eq_iff]

lemma effect_resetMin : Effect addr m .resetMin (resetSchedTickToPendsvMinTicks addr m) := by
  constructor <;> simp [resetSchedTickToPendsvMinTicks, clear, haddr.eq_iff]

lemma effect_resetMax : Effect addr m .resetMax (resetSchedTickToPendsvMaxTicks addr m) := by
  constructor <;> simp [resetSchedTickToPendsvMaxTicks, clear, haddr.eq_iff]

lemma effect_resetMinMax :
    Effect addr m .resetMinMax (resetSchedTickToPendsvMinMaxTicks addr m) := by
  constructor <;> simp [resetSchedTickToPendsvMinMaxTicks, clear, haddr.eq_iff]

lemma effect_sample (ticks : Word) : Effect addr m (.sample ticks)
    (minMem addr (maxMem addr (sampledMem addr m ticks) ticks) ticks) := by
  -- a sample of 0 cycles is the least one, or the first
  have hleast : ticks = 0 → (if m (addr .minTicks) = 0 ∨ ticks < m (addr .minTicks) then ticks
      else m (addr .minTicks)) = 0 := by
    rintro rfl
    split_ifs with hmin
    · rfl
    · bv_omega
  constructor <;> simp [minMem_apply, maxMem_apply, sampledMem, haddr.eq_iff]
  simpa using hleast

omit haddr in
lemma effect_none (h : ∀ v ∈ timingSymbols, m' (addr v) = m (addr v)) :
    Effect addr m .none m' := by
  constructor <;> simp <;> exact h _ (by decide)

/-- What a step does. -/
lemma TimingStep.effect (h : TimingStep addr m e m') : Effect addr m e m' := by
  cases h with
  | mark => exact effect_mark haddr
  | arm => exact effect_arm haddr
  | @pendSV s call =>
      rw [schedIsrTiming_mem haddr, measuredMem]
      by_cases harmed : s.mem (addr .armed) = 0
      · rw [if_neg (not_not.mpr harmed), if_pos harmed]
        exact effect_none fun _ _ => rfl
      · rw [if_pos harmed, if_neg harmed]
        exact effect_sample haddr _
  | record a d => exact effect_record haddr a d
  | reset => exact effect_reset haddr
  | resetMin => exact effect_resetMin haddr
  | resetMax => exact effect_resetMax haddr
  | resetMinMax => exact effect_resetMinMax haddr
  | other h => exact effect_none h

end Effect

lemma zero_le_word (w : Word) : 0 ≤ w := Nat.zero_le w.toNat

open TimingEvent in
/-- An event is added to the statistics. -/
lemma Effect.reports {l : List TimingEvent} {m m' : Mem} {e : TimingEvent}
    (he : Effect addr m e m') (h : Reports l (schedTickToPendsvTiming addr m)) :
    Reports (l ++ [e]) (schedTickToPendsvTiming addr m') := by
  have hlast : ∀ {v : Symbol} {value : TimingEvent → Option Word},
      m' (addr v) = keepLast resetsAll value e (m (addr v)) →
      m (addr v) = (since resetsAll value l).getLastD 0 →
      m' (addr v) = (since resetsAll value (l ++ [e])).getLastD 0 := by
    intro v value hkeep hold
    rw [hkeep, hold, keepLast_since]
  refine ⟨?_, hlast he.lastTicks h.lastTicks, ?_, ?_, hlast he.advanceLast h.advanceLast, ?_,
    hlast he.dispatchLast h.dispatchLast, ?_⟩
  · have hsamples : m (addr .samples) = _ := h.samples
    change m' (addr .samples) = _
    rw [he.samples, since_concat]
    cases e <;> simp [hsamples, BitVec.ofNat_add]
  · change Least (m' (addr .minTicks)) _
    rw [he.minTicks]
    exact h.minTicks.keep (by rintro ⟨⟩ <;> simp) e
  · change Largest (m' (addr .maxTicks)) _
    rw [he.maxTicks]
    exact h.maxTicks.keep zero_le_word e
  · change Largest (m' (addr .advanceMaxTicks)) _
    rw [he.advanceMax]
    exact h.advanceMax.keep zero_le_word e
  · change Largest (m' (addr .dispatchMaxTicks)) _
    rw [he.dispatchMax]
    exact h.dispatchMax.keep zero_le_word e

open TimingEvent in
/-- The step lemma of the statistics. -/
lemma Measured.step {l : List TimingEvent} {m m' : Mem} {e : TimingEvent}
    (h : Measured addr l m) (he : Effect addr m e m') : Measured addr (l ++ [e]) m' := by
  refine ⟨?_, ?_, ?_, he.reports h.timing⟩
  · rw [he.enabled]
    cases e with
    | mark c => simp
    | _ => simpa using h.enabled
  · rw [he.armed, since_concat]
    cases e with
    | arm | sample _ | reset => simp
    | _ => simpa using h.armed
  · rw [he.startCycle, h.startCycle, keepLast_since]

/-- The events of a run. -/
def timingEvents (l : List (Mem × TimingEvent × Mem)) : List TimingEvent := l.map fun p => p.2.1

/-- **The timing statistics.**  In every run, the variables hold the number of the samples since the
last reset (modulo the size of the counter), the last of them, and the largest and the least since
the last reset of each, and `sched_tick_to_pendsv_timing` returns them. -/
theorem run_measured (haddr : Function.Injective addr) {l : List (Mem × TimingEvent × Mem)}
    {m : Mem} (h : Runs.Run (TimingInit addr) (TimingStep addr) l m) :
    Measured addr (timingEvents l) m := by
  induction h with
  | @start m h =>
      have hzero : ∀ v ∈ timingSymbols, m (addr v) = 0 := h
      have htiming : schedTickToPendsvTiming addr m = ⟨0, 0, 0, 0, 0, 0, 0, 0⟩ := by
        rw [schedTickToPendsvTiming]
        congr 1 <;> exact hzero _ (by decide)
      refine ⟨?_, ?_, hzero _ (by decide), ?_⟩
      · rw [hzero _ (by decide)]
        simp [timingEvents]
      · rw [hzero _ (by decide)]
        simp [timingEvents]
      · rw [htiming]
        exact ⟨rfl, rfl, least_nil, largest_nil, rfl, largest_nil, rfl, largest_nil⟩
  | step _ hs ih =>
      rw [timingEvents, List.map_append]
      exact ih.step (hs.effect haddr)

theorem run_measured_sample : ∃ l m, Runs.Run (TimingInit symbolAddr) (TimingStep symbolAddr) l m ∧
    timingEvents l = [.mark 0, .arm, .none, .sample 5] ∧
    Measured symbolAddr (timingEvents l) m := by
  have hinit : Runs.Run (TimingInit symbolAddr) (TimingStep symbolAddr) [] fun _ => 0 :=
    .start fun _ _ => rfl
  have harmed := (hinit.step .mark).step .arm
  -- five cycles pass
  have hkept : ∀ (m : Mem) (w : Word), ∀ v ∈ timingSymbols,
      Function.update m (symbolAddr .dwtCyccnt) w (symbolAddr v) = m (symbolAddr v) := by
    intro m w v hv
    refine Function.update_of_ne (fun h => ?_) _ _
    rw [symbolAddr_injective h] at hv
    revert hv
    decide
  have hcycles := harmed.step (.other (hkept _ 5))
  obtain ⟨m, hm⟩ : ∃ m, m = Function.update (armSchedTickToPendsvSample symbolAddr
      (markSchedTickToPendsvStart symbolAddr fun _ => 0)) (symbolAddr .dwtCyccnt) 5 := ⟨_, rfl⟩
  rw [← hm] at hcycles
  have hrun := hcycles.step
    (TimingStep.pendSV (s := ⟨fun _ => 0, 0, 0, fun _ => 0, false, false, m⟩) fun _ s => s)
  subst hm
  exact ⟨_, _, hrun, by decide, run_measured symbolAddr_injective hrun⟩

end Rtsched

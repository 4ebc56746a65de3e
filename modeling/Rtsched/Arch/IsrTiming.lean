import Rtsched.Arch.CtxSwitch

/-!
The epilogue of PendSV under the feature `sched-isr-timing`, which measures the way from SysTick.

* `measuredMem`: the memory after a sample that has been armed.
* `schedIsrTiming_mem`: the code leaves the memory `measuredMem`, and the registers that it needs.
* `exec_pendSV`, `exec_svCall`: the handlers as a sequence of their parts; `epilogue_sameOn` and
  `epilogue_mem_of_ne`: the epilogue keeps what the restored thread needs.
-/

namespace Rtsched

open Blocks Thumb

variable {addr : Symbol → Word} {call : Symbol → Cpu → Cpu} {s s' : Cpu}

/-- The memory after a sample of `ticks` has been counted. -/
def sampledMem (addr : Symbol → Word) (m : Mem) (ticks : Word) : Mem :=
  let samples := m (addr .samples)
  let m := Function.update m (addr .armed) 0
  let m := Function.update m (addr .lastTicks) ticks
  Function.update m (addr .samples) (samples + 1)

/-- The memory after the largest sample has been kept. -/
def maxMem (addr : Symbol → Word) (m : Mem) (ticks : Word) : Mem :=
  if m (addr .maxTicks) < ticks then Function.update m (addr .maxTicks) ticks else m

/-- The memory after the least sample has been kept; a zero is no sample. -/
def minMem (addr : Symbol → Word) (m : Mem) (ticks : Word) : Mem :=
  if m (addr .minTicks) = 0 ∨ ticks < m (addr .minTicks) then
    Function.update m (addr .minTicks) ticks
  else m

lemma maxMem_apply (m : Mem) (ticks x : Word) : maxMem addr m ticks x =
    if x = addr .maxTicks then if m (addr .maxTicks) < ticks then ticks else m (addr .maxTicks)
    else m x := by
  unfold maxMem
  split_ifs with hlt hx hx <;> simp [hx]

lemma minMem_apply (m : Mem) (ticks x : Word) : minMem addr m ticks x =
    if x = addr .minTicks then
      if m (addr .minTicks) = 0 ∨ ticks < m (addr .minTicks) then ticks else m (addr .minTicks)
    else m x := by
  unfold minMem
  split_ifs with hlt hx hx <;> simp [hx]

/-- The memory after the epilogue of PendSV. -/
def measuredMem (addr : Symbol → Word) (m : Mem) : Mem :=
  if m (addr .armed) = 0 then m
  else
    let ticks := m (addr .dwtCyccnt) - m (addr .startCycle)
    minMem addr (maxMem addr (sampledMem addr m ticks) ticks) ticks

lemma run_timingSample (haddr : Function.Injective addr) (hr1 : s.reg (.r 1) = addr .armed) :
    let ticks := s.mem (addr .dwtCyccnt) - s.mem (addr .startCycle)
    (run addr timingSample s).mem = sampledMem addr s.mem ticks ∧
    (run addr timingSample s).reg (.r 3) = ticks := by
  have hzero : ∀ w : Word, w + 0 = w := fun w => by simp
  simp only [timingSample, run_cons, run_nil, Instr.apply, Cpu.setReg, Cpu.setFlags, Cond.holds,
    Function.update_apply, Reg.r.injEq, reduceCtorEq, Fin.reduceEq, if_true, if_false, hzero,
    haddr.eq_iff, hr1, sampledMem, and_self]

/-- The carry of a comparison. -/
lemma lo_iff {a b : Word} : (!decide (b ≤ a)) = true ↔ a < b := by simp

lemma run_timingMax (addr : Symbol → Word) {ticks : Word} (hr3 : s.reg (.r 3) = ticks) :
    let s' := run addr timingMax s
    s'.mem = maxMem addr s.mem ticks ∧ s'.reg (.r 1) = addr .minTicks ∧
      s'.reg (.r 2) = s'.mem (addr .minTicks) ∧ s'.reg (.r 3) = ticks := by
  have hzero : ∀ w : Word, w + 0 = w := fun w => by simp
  simp only [timingMax, run_cons, run_nil, Instr.apply, Cpu.setReg, Cpu.setFlags, Cond.holds,
    Function.update_apply, Reg.r.injEq, Fin.reduceEq, if_true, if_false, hzero, hr3, lo_iff,
    maxMem]
  split_ifs <;> simp [hr3]

lemma run_timingMin {ticks : Word} (hr1 : s.reg (.r 1) = addr .minTicks)
    (hr2 : s.reg (.r 2) = s.mem (addr .minTicks)) (hr3 : s.reg (.r 3) = ticks)
    (hmin : s.mem (addr .minTicks) ≠ 0) :
    (run addr timingMin s).mem = minMem addr s.mem ticks := by
  have hzero : ∀ w : Word, w + 0 = w := fun w => by simp
  simp only [timingMin, run_cons, run_nil, Instr.apply, Cpu.setFlags, Cond.holds, hzero, hr1, hr2,
    hr3, lo_iff, minMem, hmin, false_or]
  split_ifs <;> rfl

/-- The part of the epilogue that keeps the least sample. -/
lemma exec_timingMin {ticks : Word} (hr1 : s.reg (.r 1) = addr .minTicks)
    (hr2 : s.reg (.r 2) = s.mem (addr .minTicks)) (hr3 : s.reg (.r 3) = ticks) :
    (exec addr call (.cbz (.r 2) 2 :: (timingMin ++
      [.b 1, .label 2, .str .al (.r 3) (.r 1) 0, .label 1, .bx .lr])) none s).mem =
      minMem addr s.mem ticks := by
  have hzero : ∀ w : Word, w + 0 = w := fun w => by simp
  by_cases hmin : s.mem (addr .minTicks) = 0
  · have hrest : timingMin ++ [.b 1, .label 2, .str .al (.r 3) (.r 1) 0, .label 1, .bx .lr] =
        (timingMin ++ [.b 1]) ++ .label 2 :: [.str .al (.r 3) (.r 1) 0, .label 1, .bx .lr] := by
      simp only [List.append_assoc, List.cons_append, List.nil_append]
    rw [exec_cbz, hr2, if_pos hmin, hrest, exec_skip (by decide), exec_plain rfl, exec_label,
      exec_bx, minMem, if_pos (Or.inl hmin)]
    simp only [Instr.apply, Cond.holds, if_true, hzero, hr1, hr3]
  · have hrest : ([.label 2, .str .al (.r 3) (.r 1) 0, .label 1, .bx .lr] : List (Instr Symbol)) =
        [.label 2, .str .al (.r 3) (.r 1) 0] ++ .label 1 :: [.bx .lr] := rfl
    rw [exec_cbz, hr2, if_neg hmin, exec_append (by decide), exec_b, hrest, exec_skip (by decide),
      exec_bx, run_timingMin hr1 hr2 hr3 hmin]

lemma run_timingArmed (addr : Symbol → Word) (s : Cpu) :
    (run addr timingArmed s).mem = s.mem ∧
    (run addr timingArmed s).reg (.r 1) = addr .armed ∧
    (run addr timingArmed s).reg (.r 2) = s.mem (addr .armed) := by
  simp [timingArmed, Instr.apply, Cpu.setReg]

/-- What the epilogue writes. -/
theorem schedIsrTiming_mem (haddr : Function.Injective addr) :
    (exec addr call (schedIsrTiming ++ [.bx .lr]) none s).mem = measuredMem addr s.mem := by
  have hsplit : schedIsrTiming ++ [.bx .lr] =
      timingArmed ++ .cbz (.r 2) 1 :: (timingSample ++ (timingMax ++ .cbz (.r 2) 2 :: (timingMin ++
        [.b 1, .label 2, .str .al (.r 3) (.r 1) 0, .label 1, .bx .lr]))) := by
    simp only [schedIsrTiming, List.append_assoc, List.cons_append, List.nil_append]
  obtain ⟨hmem, hr1, hr2⟩ := run_timingArmed addr s
  rw [hsplit, exec_append (by decide), exec_cbz, hr2]
  by_cases harmed : s.mem (addr .armed) = 0
  · have hrest : timingSample ++ (timingMax ++ .cbz (.r 2) 2 :: (timingMin ++
        [.b 1, .label 2, .str .al (.r 3) (.r 1) 0, .label 1, .bx .lr])) =
        (timingSample ++ (timingMax ++ .cbz (.r 2) 2 :: (timingMin ++
          [.b 1, .label 2, .str .al (.r 3) (.r 1) 0]))) ++ .label 1 :: [.bx .lr] := by
      simp only [List.append_assoc, List.cons_append, List.nil_append]
    rw [if_pos harmed, hrest, exec_skip (by decide), exec_bx, hmem, measuredMem, if_pos harmed]
  · obtain ⟨hmem', hr3⟩ := run_timingSample haddr hr1
    obtain ⟨hmem'', hr1', hr2', hr3'⟩ := run_timingMax addr hr3
    rw [if_neg harmed, exec_append (by decide), exec_append (by decide),
      exec_timingMin hr1' hr2' hr3', hmem'', hmem', hmem, measuredMem, if_neg harmed]

/-- The variables that the epilogue writes. -/
def measured : List Symbol := [.armed, .lastTicks, .samples, .maxTicks, .minTicks]

lemma measuredMem_of_ne {m : Mem} {x : Word} (hx : ∀ v ∈ measured, x ≠ addr v) :
    measuredMem addr m x = m x := by
  have harmed : x ≠ addr .armed := hx _ (by decide)
  have hlast : x ≠ addr .lastTicks := hx _ (by decide)
  have hsamples : x ≠ addr .samples := hx _ (by decide)
  have hmax : x ≠ addr .maxTicks := hx _ (by decide)
  have hmin : x ≠ addr .minTicks := hx _ (by decide)
  have hsample : ∀ ticks, sampledMem addr m ticks x = m x := fun ticks => by
    rw [sampledMem, Function.update_of_ne hsamples, Function.update_of_ne hlast,
      Function.update_of_ne harmed]
  rw [measuredMem]
  split
  · rfl
  · rw [minMem_apply, if_neg hmin, maxMem_apply, if_neg hmax, hsample]

/-- PendSV after its restoring half. -/
def epilogue (timing : Bool) : List (Instr Symbol) :=
  (if timing then schedIsrTiming else []) ++ [.bx .lr]

/-- A switch in three parts. -/
lemma exec_pendSV (addr : Symbol → Word) (call : Symbol → Cpu → Cpu) (timing : Bool) (s : Cpu) :
    exec addr call (pendSV timing) none s = exec addr call (epilogue timing) none
      (run addr pendSVRestore (call .schedule (run addr pendSVSave s))) := by
  rw [pendSV, exec_append (by decide), exec_bl, exec_append (by decide), epilogue]

lemma exec_svCall (addr : Symbol → Word) (call : Symbol → Cpu → Cpu) (s : Cpu) :
    exec addr call svCall none s = run addr svCallRestore (run addr svCallEnter s) := by
  rw [svCall, exec_append (by decide), exec_append (by decide), exec_bx]

/-- The epilogue leaves the registers of the resumed thread alone. -/
lemma epilogue_sameOn (timing : Bool) :
    SameOn (.lr :: calleeSaved) s (exec addr call (epilogue timing) none s) := by
  cases timing with
  | true => exact sameOn_exec (by decide) none
  | false => exact .refl s

/-- The epilogue writes nothing but its variables. -/
lemma epilogue_mem_of_ne (haddr : Function.Injective addr) {x : Word}
    (hx : ∀ v ∈ measured, x ≠ addr v) (timing : Bool) :
    (exec addr call (epilogue timing) none s).mem x = s.mem x := by
  cases timing with
  | true =>
      have hmem : (exec addr call (epilogue true) none s).mem = measuredMem addr s.mem :=
        schedIsrTiming_mem haddr
      rw [hmem, measuredMem_of_ne hx]
  | false => rfl

end Rtsched

import Rtsched.Arch.Spawn
import Rtsched.Lib.Thumb

/-!
The context switch of `src/arch/cm/ctx_switch.rs`: the handlers of PendSV and SVCall, instruction by
instruction.

* `pendSV`, `svCall`: the code of the handlers; `schedIsrTiming` is the epilogue of PendSV under the
  feature `sched-isr-timing`.
* `pendSVSave_mem`: before it calls `schedule`, PendSV saves the thread that runs.
* `pendSVRestore_spec`, `svCallRestore_spec`: the handlers then load the registers of the thread in
  `CURRENT_THREAD_CTX`; `svCallEnter_mem`: SVCall has put the thread in `START_THREAD_PTR` there.
-/

namespace Rtsched

open Blocks Thumb

/-- The symbols that the handlers use; `dwtCyccnt` is the address of the cycle counter. -/
inductive Symbol
  | currentThreadCtx
  | startThreadPtr
  | schedulerStarted
  | schedule
  | enabled
  | armed
  | startCycle
  | lastTicks
  | minTicks
  | maxTicks
  | samples
  | advanceLastTicks
  | advanceMaxTicks
  | dispatchLastTicks
  | dispatchMaxTicks
  | dwtCyccnt
  deriving DecidableEq, Repr

/-- The symbols in an order of their addresses. -/
def symbols : List Symbol :=
  [.currentThreadCtx, .startThreadPtr, .schedulerStarted, .schedule, .enabled, .armed, .startCycle,
    .lastTicks, .minTicks, .maxTicks, .samples, .advanceLastTicks, .advanceMaxTicks,
    .dispatchLastTicks, .dispatchMaxTicks, .dwtCyccnt]

/-- Addresses for them. -/
def symbolAddr (v : Symbol) : Word := 0x20003000 + BitVec.ofNat 32 (4 * symbols.idxOf v)

lemma symbolAddr_injective : Function.Injective symbolAddr := by
  intro v w h
  have hmem : ∀ v, v ∈ symbols := by rintro ⟨⟩ <;> decide
  have hlt : ∀ v, symbols.idxOf v < 16 := fun v => List.idxOf_lt_length_iff.mpr (hmem v)
  have hv := hlt v
  have hw := hlt w
  have hidx : symbols.idxOf v = symbols.idxOf w := by
    unfold symbolAddr at h
    bv_omega
  exact (List.idxOf_inj (hmem v)).mp hidx

/-- `{r4-r11}`. -/
def calleeSaved : List Reg := [.r 4, .r 5, .r 6, .r 7, .r 8, .r 9, .r 10, .r 11]

/-- `{s16-s31}`. -/
def fpCalleeSaved : List (Fin 32) :=
  [16, 17, 18, 19, 20, 21, 22, 23, 24, 25, 26, 27, 28, 29, 30, 31]

/-- The part of PendSV before `bl schedule`. -/
def pendSVSave : List (Instr Symbol) :=
  [ .tst .lr 4,
    .mrs .eq (.r 0) .msp,
    .mrs .ne (.r 0) .psp,
    .tst .lr 0x10,
    .vstmdb .eq (.r 0) fpCalleeSaved,
    .stmdb (.r 0) calleeSaved,
    .adr (.r 1) .currentThreadCtx,
    .ldr (.r 2) (.r 1) 0,
    .str .al (.r 0) (.r 2) 0,
    .str .al .lr (.r 2) 4 ]

/-- The part of PendSV after `bl schedule`. -/
def pendSVRestore : List (Instr Symbol) :=
  [ .adr (.r 1) .currentThreadCtx,
    .ldr (.r 2) (.r 1) 0,
    .ldr (.r 0) (.r 2) 0,
    .ldr .lr (.r 2) 4,
    .ldmia (.r 0) calleeSaved,
    .tst .lr 0x10,
    .vldmia .eq (.r 0) fpCalleeSaved,
    .tst .lr 4,
    .msr .eq .msp (.r 0),
    .msr .ne .psp (.r 0) ]

/-- What the feature `sched-isr-timing` adds to PendSV: the load of `ARMED`. -/
def timingArmed : List (Instr Symbol) :=
  [ .adr (.r 1) .armed,
    .ldr (.r 2) (.r 1) 0 ]

/-- `ARMED` is cleared, and the sample stored and counted. -/
def timingSample : List (Instr Symbol) :=
  [ .movs (.r 2) 0,
    .str .al (.r 2) (.r 1) 0,
    .adr (.r 1) .dwtCyccnt,
    .ldr (.r 3) (.r 1) 0,
    .adr (.r 1) .startCycle,
    .ldr (.r 2) (.r 1) 0,
    .subs (.r 3) (.r 3) (.r 2),
    .adr (.r 1) .lastTicks,
    .str .al (.r 3) (.r 1) 0,
    .adr (.r 1) .samples,
    .ldr (.r 2) (.r 1) 0,
    .adds (.r 2) (.r 2) 1,
    .str .al (.r 2) (.r 1) 0 ]

/-- `MAX_TICKS`, and the load of `MIN_TICKS`. -/
def timingMax : List (Instr Symbol) :=
  [ .adr (.r 1) .maxTicks,
    .ldr (.r 2) (.r 1) 0,
    .cmp (.r 2) (.r 3),
    .str .lo (.r 3) (.r 1) 0,
    .adr (.r 1) .minTicks,
    .ldr (.r 2) (.r 1) 0 ]

/-- A minimum that is there already. -/
def timingMin : List (Instr Symbol) :=
  [ .cmp (.r 3) (.r 2),
    .str .lo (.r 3) (.r 1) 0 ]

/-- The instructions that the feature `sched-isr-timing` adds to PendSV. -/
def schedIsrTiming : List (Instr Symbol) :=
  timingArmed ++ .cbz (.r 2) 1 :: (timingSample ++ (timingMax ++ .cbz (.r 2) 2 :: (timingMin ++
    [ .b 1,
      .label 2,
      .str .al (.r 3) (.r 1) 0,
      .label 1 ])))

/-- `PendSV`, without or with the feature `sched-isr-timing`. -/
def pendSV (timing : Bool) : List (Instr Symbol) :=
  pendSVSave ++ .bl .schedule :: (pendSVRestore ++
    ((if timing then schedIsrTiming else []) ++ [.bx .lr]))

/-- The part of SVCall that makes the thread in `START_THREAD_PTR` the current one. -/
def svCallEnter : List (Instr Symbol) :=
  [ .adr (.r 0) .startThreadPtr,
    .ldr (.r 0) (.r 0) 0,
    .adr (.r 3) .currentThreadCtx,
    .str .al (.r 0) (.r 3) 0,
    .dmb,
    .adr (.r 3) .schedulerStarted,
    .movs (.r 2) 1,
    .str .al (.r 2) (.r 3) 0 ]

/-- The part of SVCall that restores the current thread. -/
def svCallRestore : List (Instr Symbol) :=
  [ .adr (.r 3) .currentThreadCtx,
    .ldr (.r 0) (.r 3) 0,
    .ldr (.r 1) (.r 0) 0,
    .ldr .lr (.r 0) 4,
    .ldmia (.r 1) calleeSaved,
    .tst .lr 4,
    .msr .eq .msp (.r 1),
    .msr .ne .psp (.r 1) ]

/-- `SVCall`. -/
def svCall : List (Instr Symbol) := svCallEnter ++ (svCallRestore ++ [.bx .lr])

/-- `EXC_RETURN` says that the thread has an active floating-point context. -/
def fpActive (excReturn : Word) : Bool := isZero (excReturn &&& 0x10)

/-- `EXC_RETURN` says that the thread uses the main stack pointer. -/
def usesMsp (excReturn : Word) : Bool := isZero (excReturn &&& 4)

/-- The bytes that PendSV saves on the stack of a thread. -/
def savedBytes (excReturn : Word) : ℕ := if fpActive excReturn then 96 else 32

/-! ### The two halves of PendSV -/

variable (addr : Symbol → Word) {s : Cpu}

lemma bytes_calleeSaved : bytes calleeSaved = 32 := rfl

lemma bytes_fpCalleeSaved : bytes fpCalleeSaved = 64 := rfl

lemma nodup_calleeSaved : calleeSaved.Nodup := by decide

lemma nodup_fpCalleeSaved : fpCalleeSaved.Nodup := by decide

/-- The handlers use `r0` to `r3` for themselves. -/
lemma map_calleeSaved_update {f : Reg → Word} (w : Word) :
    calleeSaved.map (Function.update f (.r 0) w) = calleeSaved.map f := rfl

/-- The memory after PendSV has saved the thread that runs: its floating-point registers if they are
active, its core registers, and its control block. -/
def savedMem (s : Cpu) : Mem :=
  let sp := s.psp - BitVec.ofNat 32 (savedBytes (s.reg .lr))
  let m := if fpActive (s.reg .lr) then storeWords s.mem (s.psp - 64) (fpCalleeSaved.map s.fp)
    else s.mem
  let m := storeWords m sp (calleeSaved.map s.reg)
  storeWords m (m (addr .currentThreadCtx)) [sp, s.reg .lr]

lemma pendSVSave_mem (h : usesMsp (s.reg .lr) = false) :
    (run addr pendSVSave s).mem = savedMem addr s := by
  have hzero : ∀ w : Word, w + 0 = w := fun w => by simp
  unfold usesMsp at h
  rw [savedMem, savedBytes]
  cases hfp : fpActive (s.reg .lr) with
  | true =>
      have hsp : s.psp - 64 - 32 = s.psp - BitVec.ofNat 32 96 := by bv_omega
      unfold fpActive at hfp
      simp only [pendSVSave, run_cons, run_nil, Instr.apply, Cond.holds, Cpu.setFlags, Cpu.setReg,
        Cpu.sp, h, hfp, Bool.not_false, Bool.false_eq_true, if_true, if_false,
        Function.update_apply, Reg.r.injEq, reduceCtorEq, Fin.reduceEq, hzero,
        map_calleeSaved_update, bytes_calleeSaved, bytes_fpCalleeSaved, hsp]
      rfl
  | false =>
      unfold fpActive at hfp
      simp only [pendSVSave, run_cons, run_nil, Instr.apply, Cond.holds, Cpu.setFlags, Cpu.setReg,
        Cpu.sp, h, hfp, Bool.not_false, Bool.false_eq_true, if_true, if_false,
        Function.update_apply, Reg.r.injEq, reduceCtorEq, Fin.reduceEq, hzero,
        map_calleeSaved_update, bytes_calleeSaved]
      rfl

/-- The registers of the processor are those of a saved thread: the memory holds its context from
`sp` up, and `lr` is its `EXC_RETURN`. -/
structure Restored (m : Mem) (sp lr : Word) (s : Cpu) : Prop where
  psp : s.psp = sp + BitVec.ofNat 32 (savedBytes lr)
  excReturn : s.reg .lr = lr
  core : calleeSaved.map s.reg = loadWords m sp 8
  fp : fpActive lr → fpCalleeSaved.map s.fp = loadWords m (sp + 32) 16

/-- Code that leaves the restored registers alone. -/
lemma Restored.of_sameOn {m : Mem} {sp lr : Word} {s s' : Cpu} (h : Restored m sp lr s)
    (hsame : SameOn (.lr :: calleeSaved) s s') : Restored m sp lr s' := by
  have hcore : calleeSaved.map s'.reg = calleeSaved.map s.reg :=
    List.map_congr_left fun r hr => hsame.reg r (List.mem_cons_of_mem _ hr)
  exact ⟨hsame.psp.trans h.psp, (hsame.reg _ List.mem_cons_self).trans h.excReturn,
    hcore.trans h.core, fun hfp => hsame.fp ▸ h.fp hfp⟩

/-- Loading the core registers leaves the link register alone. -/
lemma assign_calleeSaved_lr {f : Reg → Word} {ws : List Word} :
    assign f calleeSaved ws .lr = f .lr :=
  assign_of_notMem (by decide)

/-- The core registers are those that have been loaded. -/
lemma map_assign_calleeSaved {f : Reg → Word} {m : Mem} {sp : Word} :
    calleeSaved.map (assign f calleeSaved (loadWords m sp calleeSaved.length)) =
      loadWords m sp 8 :=
  map_assign nodup_calleeSaved length_loadWords.symm

/-- The restoring half of PendSV loads the thread that `CURRENT_THREAD_CTX` names. -/
lemma pendSVRestore_spec {t : Word} (ht : s.mem (addr .currentThreadCtx) = t)
    (h : usesMsp (s.mem (t + 4)) = false) :
    (run addr pendSVRestore s).mem = s.mem ∧
    Restored s.mem (s.mem t) (s.mem (t + 4)) (run addr pendSVRestore s) := by
  have hzero : ∀ w : Word, w + 0 = w := fun w => by simp
  unfold usesMsp at h
  cases hfp : fpActive (s.mem (t + 4)) with
  | true =>
      have hsp : s.mem t + 32 + 64 = s.mem t + BitVec.ofNat 32 (savedBytes (s.mem (t + 4))) := by
        rw [savedBytes, if_pos hfp]
        bv_omega
      unfold fpActive at hfp
      simp only [pendSVRestore, run_cons, run_nil, Instr.apply, Cond.holds, Cpu.setFlags,
        Cpu.setReg, Cpu.setSp, h, ht, hfp, Bool.not_false, Bool.false_eq_true, if_true, if_false,
        Function.update_apply, Reg.r.injEq, reduceCtorEq, Fin.reduceEq, hzero,
        assign_calleeSaved_lr, bytes_calleeSaved, bytes_fpCalleeSaved]
      refine ⟨trivial, hsp, assign_calleeSaved_lr, ?_, fun _ => ?_⟩
      · rw [map_calleeSaved_update, map_calleeSaved_update, map_assign_calleeSaved]
      · exact map_assign nodup_fpCalleeSaved length_loadWords.symm
  | false =>
      have hsp : s.mem t + 32 = s.mem t + BitVec.ofNat 32 (savedBytes (s.mem (t + 4))) := by
        rw [savedBytes, hfp]
        rfl
      have hinactive : ¬ fpActive (s.mem (t + 4)) := ne_true_of_eq_false hfp
      unfold fpActive at hfp
      simp only [pendSVRestore, run_cons, run_nil, Instr.apply, Cond.holds, Cpu.setFlags,
        Cpu.setReg, Cpu.setSp, h, ht, hfp, Bool.not_false, Bool.false_eq_true, if_true, if_false,
        Function.update_apply, Reg.r.injEq, reduceCtorEq, Fin.reduceEq, hzero,
        assign_calleeSaved_lr, bytes_calleeSaved]
      refine ⟨trivial, hsp, assign_calleeSaved_lr, ?_, fun hactive => absurd hactive hinactive⟩
      rw [map_calleeSaved_update, map_assign_calleeSaved]

/-! ### SVCall -/

/-- The memory that SVCall writes for the thread `t`. -/
def startMem (m : Mem) (t : Word) : Mem :=
  Function.update (Function.update m (addr .currentThreadCtx) t) (addr .schedulerStarted) 1

lemma svCallEnter_mem :
    (run addr svCallEnter s).mem = startMem addr s.mem (s.mem (addr .startThreadPtr)) := by
  have hzero : ∀ w : Word, w + 0 = w := fun w => by simp
  simp only [svCallEnter, run_cons, run_nil, Instr.apply, Cond.holds, Cpu.setFlags, Cpu.setReg,
    if_true, Function.update_apply, Reg.r.injEq, Fin.reduceEq, if_false, hzero, startMem]

/-- The restoring half of SVCall, for a thread that has no floating-point context yet. -/
lemma svCallRestore_spec {t : Word} (ht : s.mem (addr .currentThreadCtx) = t)
    (h : usesMsp (s.mem (t + 4)) = false) (hfp : fpActive (s.mem (t + 4)) = false) :
    (run addr svCallRestore s).mem = s.mem ∧
    Restored s.mem (s.mem t) (s.mem (t + 4)) (run addr svCallRestore s) := by
  have hzero : ∀ w : Word, w + 0 = w := fun w => by simp
  have hsp : s.mem t + 32 = s.mem t + BitVec.ofNat 32 (savedBytes (s.mem (t + 4))) := by
    rw [savedBytes, hfp]
    rfl
  have hinactive : ¬ fpActive (s.mem (t + 4)) := ne_true_of_eq_false hfp
  unfold usesMsp at h
  simp only [svCallRestore, run_cons, run_nil, Instr.apply, Cond.holds, Cpu.setFlags, Cpu.setReg,
    Cpu.setSp, h, ht, Bool.not_false, Bool.false_eq_true, if_true, if_false,
    Function.update_apply, Reg.r.injEq, reduceCtorEq, Fin.reduceEq, hzero, assign_calleeSaved_lr,
    bytes_calleeSaved]
  refine ⟨trivial, hsp, assign_calleeSaved_lr, ?_, fun hactive => absurd hactive hinactive⟩
  have hr1 : ∀ (f : Reg → Word) (w : Word),
      calleeSaved.map (Function.update f (.r 1) w) = calleeSaved.map f := fun _ _ => rfl
  rw [hr1, map_assign_calleeSaved]

end Rtsched

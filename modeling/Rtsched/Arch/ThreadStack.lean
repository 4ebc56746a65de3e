import Rtsched.Lib.Blocks

/-!
`ThreadStackPort`: the stack frame that a new thread is started from, as `src/arch/cm/platform.rs`
and `src/arch/host/platform.rs` build it.

* `CortexM.initThreadStack_eq`, `Host.initThreadStack_eq`: both store `initialFrame` below the top
  of the stack, so that **the host port builds the frame of the embedded one**.
* `initialFrame`: the registers `r4` to `r11`, and then the frame that the exception return takes
  `r0`, `r1`, `r2`, `r3`, `r12`, `lr`, `pc` and `xPSR` from.
-/

namespace Rtsched

open Blocks

/-- `InitialThreadContext`. -/
structure InitialThreadContext where
  sp : Word
  excReturn : Word
  deriving DecidableEq

/-- `THREAD_STACK_ALIGNMENT`, in bytes. -/
def threadStackAlignment : ℕ := 8

/-- `THREAD_INITIAL_FRAME_WORDS`. -/
def threadInitialFrameWords : ℕ := 16

/-- `INITIAL_XPSR_THUMB_STATE`. -/
def initialXpsrThumbState : Word := 0x01000000

/-- `EXC_RETURN_THREAD_MODE_PSP`. -/
def excReturnThreadModePsp : Word := 0xFFFFFFFD

/-- `(sp as usize) & !(THREAD_STACK_ALIGNMENT - 1)`. -/
def alignDown (sp : Word) : Word := sp &&& ~~~BitVec.ofNat 32 (threadStackAlignment - 1)

/-- `init_cortex_m_thread_stack`: the frame is pushed word by word. -/
def CortexM.initThreadStack (m : Mem) (sp entry arg : Word) : Mem × InitialThreadContext :=
  let sp := alignDown sp
  let (m, sp) := pushWords m sp [initialXpsrThumbState, entry, excReturnThreadModePsp, 0]
  let (m, sp) := pushWords m sp (List.replicate 3 0)
  let (m, sp) := pushWords m sp [arg]
  let (m, sp) := pushWords m sp (List.replicate 8 0)
  (m, ⟨sp, excReturnThreadModePsp⟩)

/-- `HostPlatform::init_thread_stack`: the frame is cleared and four words are written. -/
def Host.initThreadStack (m : Mem) (sp entry arg : Word) : Mem × InitialThreadContext :=
  let sp := alignDown sp
  let frame := sp - BitVec.ofNat 32 (4 * threadInitialFrameWords)
  let m := storeWords m frame (List.replicate threadInitialFrameWords 0)
  let m := Function.update m (frame + BitVec.ofNat 32 (4 * 8)) arg
  let m := Function.update m (frame + BitVec.ofNat 32 (4 * 13)) 0xFFFFFFFD
  let m := Function.update m (frame + BitVec.ofNat 32 (4 * 14)) entry
  let m := Function.update m (frame + BitVec.ofNat 32 (4 * 15)) 0x01000000
  (m, ⟨frame, 0xFFFFFFFD⟩)

/-- What the exception return takes the registers of a new thread from. -/
def exceptionFrame (entry arg : Word) : List Word :=
  [arg, 0, 0, 0, 0, excReturnThreadModePsp, entry, initialXpsrThumbState]

/-- The frame of a new thread, from its stack pointer up. -/
def initialFrame (entry arg : Word) : List Word :=
  List.replicate 8 0 ++ exceptionFrame entry arg

lemma length_initialFrame (entry arg : Word) :
    (initialFrame entry arg).length = threadInitialFrameWords := rfl

/-- The memory and the context of a new thread. -/
def startingStack (m : Mem) (sp entry arg : Word) : Mem × InitialThreadContext :=
  (storeWords m (alignDown sp - 64) (initialFrame entry arg),
    ⟨alignDown sp - 64, excReturnThreadModePsp⟩)

/-- The embedded port. -/
theorem CortexM.initThreadStack_eq (m : Mem) (sp entry arg : Word) :
    initThreadStack m sp entry arg = startingStack m sp entry arg := by
  have hpush : pushWords m (alignDown sp) (initialFrame entry arg).reverse =
      (storeWords m (alignDown sp - 64) (initialFrame entry arg), alignDown sp - 64) :=
    pushWords_eq (by simp [length_initialFrame, threadInitialFrameWords])
  -- the pushes one after the other are one sequence of pushes
  have hsplit : (initialFrame entry arg).reverse =
      [initialXpsrThumbState, entry, excReturnThreadModePsp, 0] ++ List.replicate 3 0 ++ [arg] ++
        List.replicate 8 0 := rfl
  rw [hsplit, pushWords_append, pushWords_append, pushWords_append] at hpush
  rw [initThreadStack, startingStack]
  simp only [hpush]

/-- The host port. -/
theorem Host.initThreadStack_eq (m : Mem) (sp entry arg : Word) :
    initThreadStack m sp entry arg = startingStack m sp entry arg := by
  simp only [initThreadStack, startingStack, threadInitialFrameWords]
  rw [update_storeWords (by decide) (by decide), update_storeWords (by simp) (by simp),
    update_storeWords (by simp) (by simp), update_storeWords (by simp) (by simp)]
  rfl

/-- **The two ports agree**: on every stack they build the same frame, 16 words from the stack
pointer up, which is aligned, and they write nothing else. -/
theorem initThreadStack_ports (m : Mem) (sp entry arg : Word) :
    Host.initThreadStack m sp entry arg = CortexM.initThreadStack m sp entry arg ∧
    (CortexM.initThreadStack m sp entry arg).2 = ⟨alignDown sp - 64, 0xFFFFFFFD⟩ ∧
    loadWords (CortexM.initThreadStack m sp entry arg).1 (alignDown sp - 64)
      threadInitialFrameWords = initialFrame entry arg ∧
    ∀ x, 64 ≤ offset (alignDown sp - 64) x →
      (CortexM.initThreadStack m sp entry arg).1 x = m x := by
  rw [Host.initThreadStack_eq, CortexM.initThreadStack_eq]
  exact ⟨rfl, rfl, loadWords_storeWords rfl (by decide), fun x hx => storeWords_of_le hx⟩

end Rtsched

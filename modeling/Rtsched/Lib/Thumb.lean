import Rtsched.Lib.Blocks

/-!
A part of the ARMv7-M instruction set: what an exception handler needs to save and restore a thread.

The stack pointer is banked (`msp`, `psp`).  Of the flags only Z and C are kept.  An instruction in
an IT block carries its condition.  Branches go forward, to the next label of their number.  A
called function is a parameter of the semantics; its symbol stands for its code, and other symbols
for addresses.

* `Instr.apply`: the effect of an instruction that is no branch; `exec`: the run of a handler up to
  its `bx`.
* `exec_append`: **straight-line code runs on its own**; `exec_skip`: a taken branch skips the code
  before its label.
-/

namespace Thumb

open Blocks

/-- The registers `r0` to `r12`, and the link register. -/
inductive Reg
  | r (i : Fin 13)
  | lr
  deriving DecidableEq, Repr

/-- The banked stack pointers. -/
inductive StackPointer
  | msp
  | psp
  deriving DecidableEq, Repr

inductive Cond
  | al
  | eq
  | ne
  | lo
  deriving DecidableEq, Repr

/-- The instructions; `adr d s` is `ldr d, =s`. -/
inductive Instr (σ : Type)
  | tst (r : Reg) (imm : Word)
  | mrs (c : Cond) (d : Reg) (s : StackPointer)
  | msr (c : Cond) (d : StackPointer) (s : Reg)
  | stmdb (n : Reg) (rs : List Reg)
  | ldmia (n : Reg) (rs : List Reg)
  | vstmdb (c : Cond) (n : Reg) (ss : List (Fin 32))
  | vldmia (c : Cond) (n : Reg) (ss : List (Fin 32))
  | adr (d : Reg) (s : σ)
  | ldr (d n : Reg) (off : Word)
  | str (c : Cond) (s n : Reg) (off : Word)
  | movs (d : Reg) (imm : Word)
  | adds (d n : Reg) (imm : Word)
  | subs (d n m : Reg)
  | cmp (n m : Reg)
  | dmb
  | bl (f : σ)
  | cbz (r : Reg) (l : ℕ)
  | b (l : ℕ)
  | label (l : ℕ)
  | bx (r : Reg)

/-- The state of the processor and the memory. -/
structure Cpu where
  reg : Reg → Word
  msp : Word
  psp : Word
  fp : Fin 32 → Word
  zero : Bool
  carry : Bool
  mem : Mem

namespace Cpu

variable (s : Cpu)

def setReg (d : Reg) (w : Word) : Cpu := { s with reg := Function.update s.reg d w }

def sp : StackPointer → Word
  | .msp => s.msp
  | .psp => s.psp

def setSp (w : Word) : StackPointer → Cpu
  | .msp => { s with msp := w }
  | .psp => { s with psp := w }

def setFlags (zero carry : Bool) : Cpu := { s with zero := zero, carry := carry }

end Cpu

/-- The Z flag of a result. -/
def isZero (w : Word) : Bool := w == 0

/-- Whether a conditional instruction is executed. -/
def Cond.holds (s : Cpu) : Cond → Bool
  | .al => true
  | .eq => s.zero
  | .ne => !s.zero
  | .lo => !s.carry

/-- Assign words to a list of registers. -/
def assign {ι : Type} [DecidableEq ι] (f : ι → Word) : List ι → List Word → ι → Word
  | i :: is, w :: ws => assign (Function.update f i w) is ws
  | _, _ => f

section Assign

variable {ι : Type} [DecidableEq ι] {f : ι → Word} {is : List ι} {ws : List Word} {i : ι}

/-- Other registers keep their words. -/
lemma assign_of_notMem (hi : i ∉ is) : assign f is ws i = f i := by
  induction is generalizing f ws with
  | nil => cases ws <;> rfl
  | cons j is ih =>
      rw [List.mem_cons, not_or] at hi
      cases ws with
      | nil => rfl
      | cons w ws => rw [assign, ih hi.2, Function.update_of_ne hi.1]

/-- The registers of the list hold the words. -/
lemma map_assign (hnodup : is.Nodup) (hlen : is.length = ws.length) :
    is.map (assign f is ws) = ws := by
  induction is generalizing f ws with
  | nil => exact (List.length_eq_zero_iff.mp hlen.symm).symm
  | cons i is ih =>
      obtain ⟨hi, hnodup⟩ := List.nodup_cons.mp hnodup
      cases ws with
      | nil => cases hlen
      | cons w ws =>
          rw [List.map_cons, assign, assign_of_notMem hi, Function.update_self,
            ih hnodup (Nat.succ.inj hlen)]

end Assign

/-- The size of the words of a list of registers. -/
def bytes {ι : Type} (is : List ι) : Word := BitVec.ofNat 32 (4 * is.length)

variable {σ : Type}

namespace Instr

/-- The effect of an instruction that is no branch. -/
def apply (addr : σ → Word) (s : Cpu) : Instr σ → Cpu
  | tst r imm => s.setFlags (isZero (s.reg r &&& imm)) s.carry
  | mrs c d p => if c.holds s then s.setReg d (s.sp p) else s
  | msr c p r => if c.holds s then s.setSp (s.reg r) p else s
  | stmdb n rs =>
      let a := s.reg n - bytes rs
      { s.setReg n a with mem := storeWords s.mem a (rs.map s.reg) }
  | ldmia n rs =>
      let a := s.reg n
      { s with
        reg := Function.update (assign s.reg rs (loadWords s.mem a rs.length)) n (a + bytes rs) }
  | vstmdb c n ss =>
      if c.holds s then
        let a := s.reg n - bytes ss
        { s.setReg n a with mem := storeWords s.mem a (ss.map s.fp) }
      else s
  | vldmia c n ss =>
      if c.holds s then
        let a := s.reg n
        { s.setReg n (a + bytes ss) with fp := assign s.fp ss (loadWords s.mem a ss.length) }
      else s
  | adr d x => s.setReg d (addr x)
  | ldr d n off => s.setReg d (s.mem (s.reg n + off))
  | str c r n off =>
      if c.holds s then { s with mem := Function.update s.mem (s.reg n + off) (s.reg r) } else s
  | movs d imm => (s.setReg d imm).setFlags (isZero imm) s.carry
  | adds d n imm =>
      (s.setReg d (s.reg n + imm)).setFlags (isZero (s.reg n + imm))
        (2 ^ 32 ≤ (s.reg n).toNat + imm.toNat)
  | subs d n m =>
      (s.setReg d (s.reg n - s.reg m)).setFlags (isZero (s.reg n - s.reg m)) (s.reg m ≤ s.reg n)
  | cmp n m => s.setFlags (isZero (s.reg n - s.reg m)) (s.reg m ≤ s.reg n)
  | dmb | bl _ | cbz _ _ | b _ | label _ | bx _ => s

/-- The instruction neither branches nor calls. -/
def isPlain : Instr σ → Bool
  | bl _ | cbz _ _ | b _ | bx _ => false
  | _ => true

/-- The instruction writes no stack pointer, no floating-point register and none of `rs`. -/
def keeps (rs : List Reg) : Instr σ → Bool
  | mrs _ d _ | adr d _ | ldr d _ _ | movs d _ | adds d _ _ | subs d _ _ => d ∉ rs
  | stmdb n _ | vstmdb _ n _ => n ∉ rs
  | msr _ _ _ | ldmia _ _ | vldmia _ _ _ | bl _ => false
  | tst _ _ | str _ _ _ _ | cmp _ _ | dmb | cbz _ _ | b _ | label _ | bx _ => true

/-- The label of a branch. -/
def isLabel (l : ℕ) : Instr σ → Bool
  | label k => k = l
  | _ => false

end Instr

/-- The run of a handler: `some l` after a branch to the next label `l`. -/
def exec (addr : σ → Word) (call : σ → Cpu → Cpu) : List (Instr σ) → Option ℕ → Cpu → Cpu
  | [], _, s => s
  | i :: is, some l, s => exec addr call is (if i.isLabel l then none else some l) s
  | i :: is, none, s =>
      match i with
      | .bx _ => s
      | .bl f => exec addr call is none (call f s)
      | .cbz r l => exec addr call is (if s.reg r = 0 then some l else none) s
      | .b l => exec addr call is (some l) s
      | i => exec addr call is none (i.apply addr s)

/-- The run of straight-line code. -/
def run (addr : σ → Word) (is : List (Instr σ)) (s : Cpu) : Cpu :=
  is.foldl (Instr.apply addr) s

variable {addr : σ → Word} {call : σ → Cpu → Cpu} {is js : List (Instr σ)} {i : Instr σ}
  {s : Cpu} {l : ℕ}

@[simp] lemma run_nil : run addr [] s = s := rfl

@[simp] lemma run_cons : run addr (i :: is) s = run addr is (i.apply addr s) := rfl

lemma exec_plain (hi : i.isPlain) :
    exec addr call (i :: is) none s = exec addr call is none (i.apply addr s) := by
  cases i <;> first | rfl | cases hi

lemma exec_cbz {r : Reg} : exec addr call (.cbz r l :: is) none s =
    exec addr call is (if s.reg r = 0 then some l else none) s := rfl

lemma exec_b : exec addr call (.b l :: is) none s = exec addr call is (some l) s := rfl

lemma exec_bl {f : σ} : exec addr call (.bl f :: is) none s = exec addr call is none (call f s) :=
  rfl

lemma exec_label : exec addr call (.label l :: is) none s = exec addr call is none s := rfl

@[simp] lemma exec_bx {r : Reg} : exec addr call [.bx r] none s = s := rfl

/-- Straight-line code is run to its end. -/
theorem exec_append (his : ∀ i ∈ is, i.isPlain) :
    exec addr call (is ++ js) none s = exec addr call js none (run addr is s) := by
  induction is generalizing s with
  | nil => rfl
  | cons i is ih =>
      rw [List.cons_append, exec_plain (his i List.mem_cons_self), run_cons]
      exact ih fun j hj => his j (List.mem_cons_of_mem i hj)

/-- A taken branch skips what comes before its label. -/
theorem exec_skip (his : ∀ i ∈ is, i.isLabel l = false) :
    exec addr call (is ++ .label l :: js) (some l) s = exec addr call js none s := by
  induction is with
  | nil => simp [exec, Instr.isLabel]
  | cons i is ih =>
      rw [List.cons_append, exec, his i List.mem_cons_self, if_neg Bool.false_ne_true]
      exact ih fun j hj => his j (List.mem_cons_of_mem i hj)

/-- The two states have the same stack pointers, floating-point registers and registers `rs`. -/
structure SameOn (rs : List Reg) (s s' : Cpu) : Prop where
  msp : s'.msp = s.msp
  psp : s'.psp = s.psp
  fp : s'.fp = s.fp
  reg : ∀ r ∈ rs, s'.reg r = s.reg r

namespace SameOn

variable {rs : List Reg} {s' s'' : Cpu}

lemma refl (s : Cpu) : SameOn rs s s := ⟨rfl, rfl, rfl, fun _ _ => rfl⟩

lemma trans (h : SameOn rs s s') (h' : SameOn rs s' s'') : SameOn rs s s'' :=
  ⟨h'.msp.trans h.msp, h'.psp.trans h.psp, h'.fp.trans h.fp,
    fun r hr => (h'.reg r hr).trans (h.reg r hr)⟩

lemma setReg {d : Reg} (hd : d ∉ rs) (w : Word) : SameOn rs s (s.setReg d w) :=
  ⟨rfl, rfl, rfl, fun _ hr => Function.update_of_ne (ne_of_mem_of_not_mem hr hd) ..⟩

end SameOn

lemma sameOn_apply {rs : List Reg} (hi : i.keeps rs) : SameOn rs s (i.apply addr s) := by
  cases i with
  | mrs c d p =>
      have hd : d ∉ rs := of_decide_eq_true hi
      simp only [Instr.apply]
      split
      · exact .setReg hd _
      · exact .refl s
  | stmdb n ls => exact ⟨rfl, rfl, rfl, (SameOn.setReg (of_decide_eq_true hi) _).reg⟩
  | vstmdb c n ss =>
      have hn : n ∉ rs := of_decide_eq_true hi
      simp only [Instr.apply]
      split
      · exact ⟨rfl, rfl, rfl, (SameOn.setReg hn _).reg⟩
      · exact .refl s
  | adr d x => exact .setReg (of_decide_eq_true hi) _
  | ldr d n off => exact .setReg (of_decide_eq_true hi) _
  | str c r n off =>
      simp only [Instr.apply]
      split <;> exact ⟨rfl, rfl, rfl, fun _ _ => rfl⟩
  | movs d imm => exact ⟨rfl, rfl, rfl, (SameOn.setReg (of_decide_eq_true hi) _).reg⟩
  | adds d n imm => exact ⟨rfl, rfl, rfl, (SameOn.setReg (of_decide_eq_true hi) _).reg⟩
  | subs d n m => exact ⟨rfl, rfl, rfl, (SameOn.setReg (of_decide_eq_true hi) _).reg⟩
  | tst | cmp => exact ⟨rfl, rfl, rfl, fun _ _ => rfl⟩
  | dmb | cbz | b | label | bx => exact .refl s
  | msr | ldmia | vldmia | bl => cases hi

/-- What no instruction writes is kept. -/
theorem sameOn_exec {rs : List Reg} (his : ∀ i ∈ is, i.keeps rs) (o : Option ℕ) :
    SameOn rs s (exec addr call is o s) := by
  induction is generalizing o s with
  | nil => exact .refl s
  | cons i is ih =>
      have hi : i.keeps rs := his i List.mem_cons_self
      have hrest : ∀ s' o, SameOn rs s' (exec addr call is o s') := fun s' o =>
        ih (fun j hj => his j (List.mem_cons_of_mem i hj)) o
      cases o with
      | some l => exact hrest s _
      | none =>
          cases i with
          | bx r => exact .refl s
          | bl f => cases hi
          | cbz r l => exact hrest s _
          | b l => exact hrest s _
          | _ => exact (sameOn_apply hi).trans (hrest _ _)

end Thumb

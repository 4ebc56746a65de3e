import Rtsched.Arch.IsrTiming

/-!
The threads of the embedded port take turns on one processor: they are started, work, and are
switched by PendSV in any order.

* `MemoryMap`: where the stacks, the control blocks and the variables of the handlers are; no two
  of them overlap.
* `Step`: a builder starts a thread; the code that runs does its work, which leaves the stacks of
  the other threads alone; SVCall starts the first thread; PendSV switches to the thread that
  `schedule` chooses.
* `Reachable.resumed`: **a thread never notices a switch**.  Whenever it is resumed, it finds its
  stack, its stack pointer and the registers that the exception return does not load as they were
  when it was last suspended.
-/

namespace Rtsched

open Blocks Thumb

/-- What a word of the memory is used for. -/
inductive Region
  | stack (t : Word)
  | context (t : Word)
  | symbol (s : Symbol)
  | other
  deriving DecidableEq

/-- Where the program keeps the stacks of its threads, the `sp` and `exc_return` of their control
blocks, and the variables of the handlers. -/
structure MemoryMap where
  addr : Symbol → Word
  threads : List Word
  stack : Word → StackPtr
  region : Word → Region
  region_addr : ∀ s, region (addr s) = .symbol s
  region_context : ∀ t ∈ threads, region t = .context t ∧ region (t + 4) = .context t
  region_stack : ∀ t ∈ threads, ∀ x,
    region x = .stack t ↔ offset (stack t).base x < 4 * (stack t).words

/-- The processor when a thread was suspended, and the arguments of a thread that has not run
yet. -/
structure Context where
  cpu : Cpu
  start : Option ThreadStart

/-- A new thread in the memory `m`. -/
def Context.ofStart (m : Mem) (stack : StackPtr) (start : ThreadStart) : Context where
  cpu :=
    { reg := fun r => if r = .lr then excReturnThreadModePsp else 0
      msp := 0
      psp := stack.top - 32
      fp := fun _ => 0
      zero := false
      carry := false
      mem := m }
  start := some start

/-- The processor, the thread that runs on it, and how each thread was suspended last. -/
structure Machine where
  cpu : Cpu
  running : Option Word
  last : Word → Option Context

variable (map : MemoryMap)

/-- The work of the code that runs, which may use its own stack and all other memory. -/
structure Works (m : Machine) (cpu : Cpu) : Prop where
  stack : ∀ x t, map.region x = .stack t → m.running ≠ some t → cpu.mem x = m.cpu.mem x
  context : ∀ x t, map.region x = .context t → cpu.mem x = m.cpu.mem x
  current : cpu.mem (map.addr .currentThreadCtx) = m.cpu.mem (map.addr .currentThreadCtx)

/-- What `schedule` must leave alone. -/
def KeepsThreads (s s' : Cpu) : Prop :=
  ∀ x t, map.region x = .stack t ∨ map.region x = .context t → s'.mem x = s.mem x

/-- The thread `t` has the stack pointer it may be suspended with: the words that PendSV saves fit
below it. -/
structure Suspendable (t : Word) (cpu : Cpu) : Prop where
  usesMsp : usesMsp (cpu.reg .lr) = false
  room : savedBytes (cpu.reg .lr) ≤ offset (map.stack t).base cpu.psp
  le_top : offset (map.stack t).base cpu.psp ≤ 4 * (map.stack t).words

/-- A handler gives the processor to the thread `u`. -/
inductive Resume (timing : Bool) : Machine → Word → Machine → Prop
  | start {m : Machine} {u : Word} (call : Symbol → Cpu → Cpu) (hidle : m.running = none)
      (hu : (m.last u).isSome) (hptr : m.cpu.mem (map.addr .startThreadPtr) = u) :
      Resume timing m u
        { m with cpu := exec map.addr call svCall none m.cpu, running := some u }
  | switch {m : Machine} {t u : Word} (call : Symbol → Cpu → Cpu) (hrun : m.running = some t)
      (ht : Suspendable map t m.cpu) (hcall : ∀ s, KeepsThreads map s (call .schedule s))
      (hu : (m.last u).isSome)
      (hnext : (call .schedule (run map.addr pendSVSave m.cpu)).mem
        (map.addr .currentThreadCtx) = u) :
      Resume timing m u
        { cpu := exec map.addr call (pendSV timing) none m.cpu
          running := some u
          last := Function.update m.last t (some ⟨m.cpu, none⟩) }

/-- One step of the program. -/
inductive Step (timing : Bool) : Machine → Machine → Prop
  | spawn {m : Machine} {debug : Bool} {s s' : Spawner} {t : Word} {start : ThreadStart}
      {args : InitArgs} (ht : t ∈ map.threads) (hnew : m.last t = none) (hs : s.mem = m.cpu.mem)
      (h : s.spawn debug t (map.stack t) start args = (s', .ok t)) :
      Step timing m
        { m with
          cpu := { m.cpu with mem := s'.mem }
          last := Function.update m.last t (some (.ofStart s'.mem (map.stack t) start)) }
  | work {m : Machine} {cpu : Cpu} (h : Works map m cpu) : Step timing m { m with cpu := cpu }
  | resume {m m' : Machine} {u : Word} (h : Resume map timing m u m') : Step timing m m'

/-- Reached from the reset of the processor. -/
inductive Reachable (timing : Bool) : Machine → Prop
  | reset (cpu : Cpu) : Reachable timing ⟨cpu, none, fun _ => none⟩
  | step {m m' : Machine} (hm : Reachable timing m) (h : Step map timing m m') :
      Reachable timing m'

/-- A thread finds what it was suspended with. -/
structure Resumed (t : Word) (c : Context) (cpu : Cpu) : Prop where
  psp : cpu.psp = c.cpu.psp
  excReturn : cpu.reg .lr = c.cpu.reg .lr
  core : calleeSaved.map cpu.reg = calleeSaved.map c.cpu.reg
  fp : fpActive (c.cpu.reg .lr) → fpCalleeSaved.map cpu.fp = fpCalleeSaved.map c.cpu.fp
  stack : ∀ x, map.region x = .stack t →
    offset (map.stack t).base c.cpu.psp ≤ offset (map.stack t).base x → cpu.mem x = c.cpu.mem x
  frame : ∀ s, c.start = some s → loadWords cpu.mem cpu.psp 8 = exceptionFrame s.entry s.arg

/-! ### The stacks -/

variable {map} {t u x a : Word} {m m' : Mem} {ws : List Word} {n : ℕ} {c : Context} {s : Cpu}

lemma MemoryMap.words_lt (ht : t ∈ map.threads) : 4 * (map.stack t).words < 2 ^ 32 := by
  by_contra hge
  have hoff : offset (map.stack t).base (map.addr .schedule) < 4 * (map.stack t).words :=
    lt_of_lt_of_le offset_lt (not_lt.mp hge)
  have hregion := (map.region_stack t ht _).mpr hoff
  rw [map.region_addr] at hregion
  cases hregion

/-- A block of the stack belongs to it. -/
lemma MemoryMap.region_block (ht : t ∈ map.threads)
    (hroom : offset (map.stack t).base a + n ≤ 4 * (map.stack t).words) (hx : offset a x < n) :
    map.region x = .stack t := by
  have hlt := words_lt ht
  rw [map.region_stack t ht, offset_of_add (a := a) (by omega)]
  omega

/-- Words stored on the stack of a thread leave other memory alone. -/
lemma storeWords_stack (ht : t ∈ map.threads)
    (hroom : offset (map.stack t).base a + 4 * ws.length ≤ 4 * (map.stack t).words)
    (hx : map.region x ≠ .stack t) : storeWords m a ws x = m x := by
  refine storeWords_of_le (not_lt.mp fun hlt => hx ?_)
  exact map.region_block ht hroom hlt

/-- Words stored in the control block of a thread leave other memory alone. -/
lemma storeWords_context (ht : t ∈ map.threads) {sp lr : Word} (hx : map.region x ≠ .context t) :
    storeWords m t [sp, lr] x = m x := by
  obtain ⟨hfirst, hsecond⟩ := map.region_context t ht
  have hne : x ≠ t := by
    rintro rfl
    exact hx hfirst
  have hne' : x ≠ t + 4 := by
    rintro rfl
    exact hx hsecond
  rw [storeWords, storeWords, storeWords, Function.update_of_ne hne', Function.update_of_ne hne]

/-! ### What is kept of a suspended thread -/

/-- The memory holds a suspended thread. -/
structure Saved (map : MemoryMap) (t : Word) (c : Context) (m : Mem) : Prop where
  mem : t ∈ map.threads
  suspendable : Suspendable map t c.cpu
  sp : m t = c.cpu.psp - BitVec.ofNat 32 (savedBytes (c.cpu.reg .lr))
  excReturn : m (t + 4) = c.cpu.reg .lr
  core : loadWords m (m t) 8 = calleeSaved.map c.cpu.reg
  fp : fpActive (c.cpu.reg .lr) → loadWords m (m t + 32) 16 = fpCalleeSaved.map c.cpu.fp
  stack : ∀ x, map.region x = .stack t →
    offset (map.stack t).base c.cpu.psp ≤ offset (map.stack t).base x → m x = c.cpu.mem x
  frame : ∀ s, c.start = some s → fpActive (c.cpu.reg .lr) = false ∧
    loadWords m c.cpu.psp 8 = exceptionFrame s.entry s.arg ∧
    offset (map.stack t).base c.cpu.psp + 32 ≤ 4 * (map.stack t).words

/-- Two memories hold the same of the thread `t`. -/
def SameThread (map : MemoryMap) (t : Word) (m m' : Mem) : Prop :=
  ∀ x, map.region x = .stack t ∨ map.region x = .context t → m' x = m x

/-- What writes only the memory of a thread leaves the other threads alone. -/
lemma SameThread.of_ne (hu : u ≠ t)
    (h : ∀ x, map.region x ≠ .stack t → map.region x ≠ .context t → m' x = m x) :
    SameThread map u m m' := by
  rintro x (hx | hx)
  · have hne : map.region x ≠ .stack t := fun h => hu (Region.stack.inj (hx.symm.trans h))
    exact h x hne (hx ▸ Region.noConfusion)
  · have hne : map.region x ≠ .context t := fun h => hu (Region.context.inj (hx.symm.trans h))
    exact h x (hx ▸ Region.noConfusion) hne

lemma SameThread.trans {m'' : Mem} (h : SameThread map t m m') (h' : SameThread map t m' m'') :
    SameThread map t m m'' :=
  fun x hx => (h' x hx).trans (h x hx)

namespace Saved

lemma offset_sp (h : Saved map t c m) : offset (map.stack t).base (m t) =
    offset (map.stack t).base c.cpu.psp - savedBytes (c.cpu.reg .lr) := by
  rw [h.sp]
  exact offset_sub h.suspendable.room

/-- A thread is kept by what leaves its memory alone. -/
lemma congr (h : Saved map t c m) (hsame : SameThread map t m m') : Saved map t c m' := by
  obtain ⟨hfirst, hsecond⟩ := map.region_context t h.mem
  have hsp : m' t = m t := hsame t (.inr hfirst)
  have hoff := h.offset_sp
  have hroom := h.suspendable.room
  have htop := h.suspendable.le_top
  -- the words that PendSV saved are on the stack of the thread
  have hload : ∀ {a : Word} {n : ℕ},
      offset (map.stack t).base a + 4 * n ≤ 4 * (map.stack t).words →
      loadWords m' a n = loadWords m a n := by
    intro a n hn
    have hlt := map.words_lt h.mem
    refine loadWords_congr (by omega) fun x hx => hsame x (.inl ?_)
    exact map.region_block h.mem hn hx
  refine ⟨h.mem, h.suspendable, hsp.trans h.sp, (hsame _ (.inr hsecond)).trans h.excReturn, ?_, ?_,
    fun x hx hle => (hsame x (.inl hx)).trans (h.stack x hx hle), fun s hs => ?_⟩
  · have hbytes : 32 ≤ savedBytes (c.cpu.reg .lr) := by
      unfold savedBytes
      split <;> omega
    rw [hsp, hload (by omega), h.core]
  · intro hfp
    have hbytes : savedBytes (c.cpu.reg .lr) = 96 := if_pos hfp
    have hnext : offset (map.stack t).base (m t + 32) = offset (map.stack t).base (m t) + 32 := by
      have hlt := map.words_lt h.mem
      have hword : offset (m t) (m t + 32) = 32 := by
        unfold offset
        bv_omega
      rw [offset_of_add (a := m t) (by omega), hword]
    rw [hsp, hload (by omega), h.fp hfp]
  · obtain ⟨hinactive, hframe, hle⟩ := h.frame s hs
    exact ⟨hinactive, by rw [hload (by omega), hframe], hle⟩

/-- A thread that is restored is resumed. -/
lemma resumed_of (h : Saved map t c m) (hs : Restored m (m t) (m (t + 4)) s)
    (hmem : SameThread map t m s.mem) : Resumed map t c s := by
  have h' := h.congr hmem
  have hpsp : s.psp = c.cpu.psp := by
    rw [hs.psp, h.excReturn, h.sp]
    bv_omega
  refine ⟨hpsp, hs.excReturn.trans h.excReturn, hs.core.trans h.core, fun hfp => ?_, h'.stack,
    fun st hst => ?_⟩
  · exact (hs.fp (h.excReturn ▸ hfp)).trans (h.fp hfp)
  · rw [hpsp]
    exact (h'.frame st hst).2.1

end Saved

/-! ### Saving a thread -/

/-- The two fields of a control block. -/
lemma storeWords_fields (m : Mem) (t sp lr : Word) :
    storeWords m t [sp, lr] t = sp ∧ storeWords m t [sp, lr] (t + 4) = lr := by
  have hne : t ≠ t + 4 := by bv_omega
  rw [storeWords, storeWords, storeWords, Function.update_self, Function.update_of_ne hne,
    Function.update_self]
  exact ⟨rfl, rfl⟩

/-- The words above a block on a stack are left alone. -/
lemma storeWords_above (map : MemoryMap) (t : Word)
    (hle : offset (map.stack t).base a + 4 * ws.length ≤ offset (map.stack t).base x) :
    storeWords m a ws x = m x := by
  refine storeWords_of_le ?_
  rw [offset_of_le (b := (map.stack t).base) (by omega)]
  omega

section Save

variable (hcur : s.mem (map.addr .currentThreadCtx) = t) (ht : t ∈ map.threads)
  (h : Suspendable map t s)

include hcur ht h

/-- The stack of a thread after PendSV has saved it. -/
lemma savedMem_eq : ∃ m₁ m₂ : Mem,
    savedMem map.addr s = storeWords m₂ t
      [s.psp - BitVec.ofNat 32 (savedBytes (s.reg .lr)), s.reg .lr] ∧
    m₂ = storeWords m₁ (s.psp - BitVec.ofNat 32 (savedBytes (s.reg .lr)))
      (calleeSaved.map s.reg) ∧
    (fpActive (s.reg .lr) → loadWords m₁ (s.psp - 64) 16 = fpCalleeSaved.map s.fp) ∧
    (∀ x, map.region x ≠ .stack t ∨
      offset (map.stack t).base s.psp ≤ offset (map.stack t).base x → m₂ x = s.mem x) := by
  set sp := s.psp - BitVec.ofNat 32 (savedBytes (s.reg .lr)) with hsp
  set m₁ := if fpActive (s.reg .lr) then
    storeWords s.mem (s.psp - 64) (fpCalleeSaved.map s.fp) else s.mem with hm₁
  have hroom := h.room
  have htop := h.le_top
  have hoff : offset (map.stack t).base sp =
      offset (map.stack t).base s.psp - savedBytes (s.reg .lr) := offset_sub h.room
  have hsaved : 32 ≤ savedBytes (s.reg .lr) := by
    unfold savedBytes
    split <;> omega
  -- the floating-point registers
  have hfp : ∀ x, map.region x ≠ .stack t ∨
      offset (map.stack t).base s.psp ≤ offset (map.stack t).base x → m₁ x = s.mem x := by
    intro x hx
    rw [hm₁]
    split
    · rename_i hfp
      have hbytes : savedBytes (s.reg .lr) = 96 := if_pos hfp
      have hfpoff : offset (map.stack t).base (s.psp - 64) =
          offset (map.stack t).base s.psp - 64 :=
        offset_sub (n := 64) (by omega)
      have hlen : (fpCalleeSaved.map s.fp).length = 16 := rfl
      rcases hx with hx | hx
      · exact storeWords_stack ht (by omega) hx
      · exact storeWords_above map t (by omega)
    · rfl
  -- the core registers
  have hcore : ∀ x, map.region x ≠ .stack t ∨
      offset (map.stack t).base s.psp ≤ offset (map.stack t).base x →
      storeWords m₁ sp (calleeSaved.map s.reg) x = s.mem x := by
    intro x hx
    have hlen : (calleeSaved.map s.reg).length = 8 := rfl
    rw [← hfp x hx]
    rcases hx with hx | hx
    · exact storeWords_stack ht (by omega) hx
    · exact storeWords_above map t (by omega)
  refine ⟨m₁, _, ?_, rfl, fun hactive => ?_, hcore⟩
  · have hsymbol : map.region (map.addr .currentThreadCtx) ≠ .stack t := by
      rw [map.region_addr]
      exact Region.noConfusion
    rw [savedMem, hcore _ (.inl hsymbol), hcur]
  · rw [hm₁, if_pos hactive]
    exact loadWords_storeWords rfl (by omega)

/-- The saved thread. -/
lemma saved_savedMem : Saved map t ⟨s, none⟩ (savedMem map.addr s) := by
  obtain ⟨m₁, m₂, hmem, hm₂, hfp, hkept⟩ := savedMem_eq hcur ht h
  set sp := s.psp - BitVec.ofNat 32 (savedBytes (s.reg .lr)) with hsp
  have hroom := h.room
  have htop := h.le_top
  have hoff : offset (map.stack t).base sp =
      offset (map.stack t).base s.psp - savedBytes (s.reg .lr) := offset_sub h.room
  have hlt := map.words_lt ht
  have hsaved : 32 ≤ savedBytes (s.reg .lr) := by
    unfold savedBytes
    split <;> omega
  obtain ⟨hfirst, hsecond⟩ := storeWords_fields m₂ t sp (s.reg .lr)
  rw [← hmem] at hfirst hsecond
  -- the control block is not on the stack
  have hstack : ∀ x, map.region x = .stack t → savedMem map.addr s x = m₂ x := by
    intro x hx
    rw [hmem]
    refine storeWords_context ht ?_
    rw [hx]
    exact Region.noConfusion
  have hload : ∀ {a : Word} {n : ℕ},
      offset (map.stack t).base a + 4 * n ≤ 4 * (map.stack t).words →
      loadWords (savedMem map.addr s) a n = loadWords m₂ a n := fun hn =>
    loadWords_congr (by omega) fun x hx => hstack x (map.region_block ht hn hx)
  have hlen : (calleeSaved.map s.reg).length = 8 := rfl
  refine ⟨ht, h, hfirst, hsecond, ?_, fun hactive => ?_, fun x hx hle => ?_, fun _ hs => ?_⟩
  · rw [hfirst, hload (by omega), hm₂, loadWords_storeWords hlen (by omega)]
  · have hactive : fpActive (s.reg .lr) := hactive
    have hbytes : savedBytes (s.reg .lr) = 96 := if_pos hactive
    have hfpoff : offset (map.stack t).base (s.psp - 64) =
        offset (map.stack t).base s.psp - 64 := offset_sub (n := 64) (by omega)
    have hnext : sp + 32 = s.psp - 64 := by
      rw [hsp, hbytes]
      bv_omega
    rw [hfirst, hnext, hload (by omega), hm₂, ← hfp hactive]
    refine loadWords_congr (by omega) fun x hx => ?_
    have habove := offset_of_add (b := (map.stack t).base) (a := s.psp - 64) (x := x) (by omega)
    exact storeWords_above map t (by omega)
  · exact (hstack x hx).trans (hkept x (.inr hle))
  · cases hs

/-- Nothing else is written. -/
lemma savedMem_of_ne (hstack : map.region x ≠ .stack t) (hcontext : map.region x ≠ .context t) :
    savedMem map.addr s x = s.mem x := by
  obtain ⟨m₁, m₂, hmem, -, -, hkept⟩ := savedMem_eq hcur ht h
  rw [hmem, storeWords_context ht hcontext, hkept x (.inl hstack)]

end Save

/-! ### A new thread -/

section Start

variable {start : ThreadStart} (ht : t ∈ map.threads)
  (hwords : threadInitialFrameWords ≤ (map.stack t).words)

include ht hwords

lemma offset_top (hn : n ≤ 64) : offset (map.stack t).base ((map.stack t).top - BitVec.ofNat 32 n) =
    4 * (map.stack t).words - n := by
  have hlt := map.words_lt ht
  have htop : offset (map.stack t).base (map.stack t).top = 4 * (map.stack t).words :=
    offset_add hlt
  unfold threadInitialFrameWords at hwords
  rw [offset_sub (by omega), htop]

/-- The memory holds the new thread. -/
lemma saved_startedMem {m₁ : Mem} (hm₁ : m₁ = Spawner.startedMem m t (map.stack t) start) :
    Saved map t (.ofStart m₁ (map.stack t) start) m₁ := by
  have hlt := map.words_lt ht
  have hoff : offset (map.stack t).base ((map.stack t).top - 64) = 4 * (map.stack t).words - 64 :=
    offset_top ht hwords (n := 64) (by omega)
  have hoff' : offset (map.stack t).base ((map.stack t).top - 32) = 4 * (map.stack t).words - 32 :=
    offset_top ht hwords (n := 32) (by omega)
  have hnext : (map.stack t).top - 64 + BitVec.ofNat 32 (4 * 8) = (map.stack t).top - 32 := by
    bv_omega
  have hsub : (map.stack t).top - 32 - BitVec.ofNat 32 32 = (map.stack t).top - 64 := by bv_omega
  unfold threadInitialFrameWords at hwords
  obtain ⟨hfirst, hsecond⟩ := storeWords_fields
    (storeWords m ((map.stack t).top - 64) (initialFrame start.entry start.arg)) t
    ((map.stack t).top - 64) excReturnThreadModePsp
  rw [← Spawner.startedMem, ← hm₁] at hfirst hsecond
  -- the frame is on the stack, the control block is not
  have hframe : loadWords m₁ ((map.stack t).top - 64) (8 + 8) =
      List.replicate 8 0 ++ exceptionFrame start.entry start.arg := by
    have hload : loadWords (storeWords m ((map.stack t).top - 64)
        (initialFrame start.entry start.arg)) ((map.stack t).top - 64) (8 + 8) =
        initialFrame start.entry start.arg := loadWords_storeWords rfl (by omega)
    rw [← initialFrame, ← hload]
    refine loadWords_congr (by omega) fun x hx => ?_
    rw [hm₁, Spawner.startedMem]
    refine storeWords_context ht ?_
    rw [map.region_block ht (by omega) hx]
    exact Region.noConfusion
  rw [loadWords_add, hnext] at hframe
  obtain ⟨hcore, hexc⟩ := List.append_inj hframe length_loadWords
  have hbytes : savedBytes excReturnThreadModePsp = 32 := rfl
  have hinactive : fpActive excReturnThreadModePsp = false := rfl
  have hlr : (Context.ofStart m₁ (map.stack t) start).cpu.reg .lr = excReturnThreadModePsp := by
    simp [Context.ofStart]
  have hsuspendable : Suspendable map t (Context.ofStart m₁ (map.stack t) start).cpu := by
    refine ⟨?_, ?_, ?_⟩
    · rw [hlr]
      rfl
    · rw [hlr]
      change savedBytes excReturnThreadModePsp ≤ offset (map.stack t).base ((map.stack t).top - 32)
      omega
    · change offset (map.stack t).base ((map.stack t).top - 32) ≤ _
      omega
  have hsp : m₁ t =
      (map.stack t).top - 32 - BitVec.ofNat 32 (savedBytes excReturnThreadModePsp) := by
    rw [hbytes, hsub, hfirst]
  rw [← hlr] at hsp hsecond hinactive
  refine ⟨ht, hsuspendable, hsp, hsecond, ?_, fun hactive => ?_, fun _ _ _ => rfl, fun s hs => ?_⟩
  · rw [hfirst, hcore]
    rfl
  · exact absurd hactive (ne_true_of_eq_false hinactive)
  · cases hs
    refine ⟨hinactive, hexc, ?_⟩
    change offset (map.stack t).base ((map.stack t).top - 32) + 32 ≤ _
    omega

/-- Nothing else is written. -/
lemma startedMem_of_ne (hstack : map.region x ≠ .stack t) (hcontext : map.region x ≠ .context t) :
    Spawner.startedMem m t (map.stack t) start x = m x := by
  have hoff : offset (map.stack t).base ((map.stack t).top - 64) = 4 * (map.stack t).words - 64 :=
    offset_top ht hwords (n := 64) (by omega)
  unfold threadInitialFrameWords at hwords
  have hlen : (initialFrame start.entry start.arg).length = 16 := rfl
  rw [Spawner.startedMem, storeWords_context ht hcontext, storeWords_stack ht (by omega) hstack]

end Start

/-! ### Runs -/

/-- The invariant of a run. -/
structure Machine.Inv (map : MemoryMap) (m : Machine) : Prop where
  saved : ∀ t c, m.last t = some c → m.running ≠ some t → Saved map t c m.cpu.mem
  mem : ∀ t c, m.last t = some c → t ∈ map.threads
  running : ∀ t, m.running = some t → (m.last t).isSome
  current : ∀ t, m.running = some t → m.cpu.mem (map.addr .currentThreadCtx) = t
  new : m.running = none → ∀ t c, m.last t = some c → c.start.isSome

section Runs

variable {M M' : Machine} {timing : Bool}

lemma MemoryMap.addr_injective : Function.Injective map.addr := by
  intro v w hvw
  have hregion := map.region_addr v
  rw [hvw, map.region_addr w] at hregion
  exact (Region.symbol.inj hregion).symm

/-- The stacks and the control blocks are no variables of the handlers. -/
lemma MemoryMap.ne_addr (hx : map.region x = .stack t ∨ map.region x = .context t) (v : Symbol) :
    x ≠ map.addr v := by
  rintro rfl
  rw [map.region_addr] at hx
  rcases hx with hx | hx <;> cases hx

lemma update_eq_some {f : Word → Option Context} {c' : Context}
    (h : Function.update f t (some c') u = some c) : (u = t ∧ c' = c) ∨ (u ≠ t ∧ f u = some c) := by
  by_cases hut : u = t
  · subst hut
    rw [Function.update_self] at h
    exact .inl ⟨rfl, Option.some.inj h⟩
  · rw [Function.update_of_ne hut] at h
    exact .inr ⟨hut, h⟩

namespace Machine.Inv

/-- The code that runs. -/
lemma work (hM : M.Inv map) {cpu : Cpu} (h : Works map M cpu) :
    Inv map { M with cpu := cpu } := by
  refine ⟨fun t c hc ht => (hM.saved t c hc ht).congr ?_, hM.mem, hM.running,
    fun t ht => h.current.trans (hM.current t ht), hM.new⟩
  rintro x (hx | hx)
  · exact h.stack x t hx ht
  · exact h.context x t hx

/-- A new thread. -/
lemma spawn (hM : M.Inv map) {debug : Bool} {sp sp' : Spawner} {start : ThreadStart}
    {args : InitArgs} (ht : t ∈ map.threads) (hnew : M.last t = none) (hs : sp.mem = M.cpu.mem)
    (h : sp.spawn debug t (map.stack t) start args = (sp', .ok t)) :
    Inv map { M with
      cpu := { M.cpu with mem := sp'.mem }
      last := Function.update M.last t (some (.ofStart sp'.mem (map.stack t) start)) } := by
  obtain ⟨hvalid, -, hsp'⟩ := Spawner.spawn_eq_ok h
  have hmem : sp'.mem = Spawner.startedMem M.cpu.mem t (map.stack t) start := by
    rw [hsp', Spawner.started, hs]
  have hrunning : ∀ u, M.running = some u → u ≠ t := by
    rintro u hu rfl
    have hsome := hM.running u hu
    rw [hnew] at hsome
    cases hsome
  refine ⟨fun u c hc hu => ?_, fun u c hc => ?_, fun u hu => ?_, fun u hu => ?_,
    fun hidle u c hc => ?_⟩
  · obtain ⟨rfl, rfl⟩ | ⟨hut, hc⟩ := update_eq_some hc
    · exact saved_startedMem ht hvalid.words hmem
    · refine (hM.saved u c hc hu).congr (.of_ne hut fun x hx hx' => ?_)
      exact (congrFun hmem x).trans (startedMem_of_ne ht hvalid.words hx hx')
  · obtain ⟨rfl, -⟩ | ⟨-, hc⟩ := update_eq_some hc
    · exact ht
    · exact hM.mem u c hc
  · exact (congrArg Option.isSome (Function.update_of_ne (hrunning u hu) _ _)).trans
      (hM.running u hu)
  · have hsymbol := map.region_addr .currentThreadCtx
    have hkept : sp'.mem (map.addr .currentThreadCtx) = M.cpu.mem (map.addr .currentThreadCtx) := by
      rw [hmem]
      refine startedMem_of_ne ht hvalid.words ?_ ?_ <;> rw [hsymbol] <;> exact Region.noConfusion
    exact hkept.trans (hM.current u hu)
  · obtain ⟨-, rfl⟩ | ⟨-, hc⟩ := update_eq_some hc
    · rfl
    · exact hM.new hidle u c hc

/-- A handler restores a thread. -/
lemma resume (hM : M.Inv map) (h : Resume map timing M u M') :
    M'.Inv map ∧ M'.running = some u ∧ ∃ c, M'.last u = some c ∧ Resumed map u c M'.cpu := by
  cases h with
  | start call hidle hu hptr =>
      obtain ⟨c, hc⟩ := Option.isSome_iff_exists.mp hu
      have hmem := svCallEnter_mem map.addr (s := M.cpu)
      rw [hptr] at hmem
      -- the two variables that SVCall writes
      have hsame : ∀ t, SameThread map t M.cpu.mem (run map.addr svCallEnter M.cpu).mem := by
        intro t x hx
        rw [hmem, startMem, Function.update_of_ne (map.ne_addr hx _),
          Function.update_of_ne (map.ne_addr hx _)]
      have hcurrent : (run map.addr svCallEnter M.cpu).mem (map.addr .currentThreadCtx) = u := by
        have hne : map.addr .currentThreadCtx ≠ map.addr .schedulerStarted :=
          fun h => Symbol.noConfusion (map.addr_injective h)
        rw [hmem, startMem, Function.update_of_ne hne, Function.update_self]
      have hidle' : ∀ t, M.running ≠ some t := fun t ht => by
        rw [hidle] at ht
        cases ht
      have hsaved := (hM.saved u c hc (hidle' u)).congr (hsame u)
      obtain ⟨st, hst⟩ := Option.isSome_iff_exists.mp (hM.new hidle u c hc)
      have hlr := hsaved.excReturn
      obtain ⟨hkept, hrestored⟩ := svCallRestore_spec map.addr hcurrent
        (hlr ▸ hsaved.suspendable.usesMsp) (hlr ▸ (hsaved.frame st hst).1)
      rw [exec_svCall]
      refine ⟨⟨fun t c' hc' _ => ?_, hM.mem, ?_, ?_, ?_⟩, rfl, c, hc,
        hsaved.resumed_of hrestored ?_⟩
      · have hsaved' := (hM.saved t c' hc' (hidle' t)).congr (hsame t)
        exact hsaved'.congr fun x _ => congrFun hkept x
      · rintro t ⟨⟩
        exact hu
      · rintro t ⟨⟩
        exact (congrFun hkept _).trans hcurrent
      · exact fun h => absurd h (Option.some_ne_none u)
      · exact fun x _ => congrFun hkept x
  | @switch t _ call hrun ht hcall hu hnext =>
      obtain ⟨c₀, hc₀⟩ := Option.isSome_iff_exists.mp (hM.running t hrun)
      have htmem := hM.mem t c₀ hc₀
      have hcur := hM.current t hrun
      set s₁ := call .schedule (run map.addr pendSVSave M.cpu) with hs₁
      have hmem := pendSVSave_mem map.addr ht.usesMsp
      have hcalled : ∀ v, SameThread map v (savedMem map.addr M.cpu) s₁.mem := fun v x hx => by
        rw [← hmem]
        exact hcall _ x v hx
      -- every thread is saved when `schedule` returns
      have hsaved : ∀ v c, Function.update M.last t (some ⟨M.cpu, none⟩) v = some c →
          Saved map v c s₁.mem := by
        intro v c hc
        obtain ⟨rfl, rfl⟩ | ⟨hv, hc⟩ := update_eq_some hc
        · exact (saved_savedMem hcur htmem ht).congr (hcalled _)
        · have hrun' : M.running ≠ some v := fun h => hv (Option.some.inj (h.symm.trans hrun))
          refine (hM.saved v c hc hrun').congr (.trans (.of_ne hv fun x hx hx' => ?_) (hcalled v))
          exact savedMem_of_ne hcur htmem ht hx hx'
      have hsome : (Function.update M.last t (some ⟨M.cpu, none⟩) u).isSome := by
        by_cases hut : u = t
        · rw [hut, Function.update_self]
          rfl
        · rw [Function.update_of_ne hut]
          exact hu
      obtain ⟨c, hc⟩ := Option.isSome_iff_exists.mp hsome
      have hsavedu := hsaved u c hc
      have hlr := hsavedu.excReturn
      obtain ⟨hkept, hrestored⟩ := pendSVRestore_spec map.addr hnext
        (hlr ▸ hsavedu.suspendable.usesMsp)
      rw [exec_pendSV, ← hs₁]
      set s₂ := run map.addr pendSVRestore s₁
      have hepilogue : ∀ x, (∀ v ∈ measured, x ≠ map.addr v) →
          (exec map.addr call (epilogue timing) none s₂).mem x = s₁.mem x := fun x hx =>
        (epilogue_mem_of_ne map.addr_injective hx timing).trans (congrFun hkept x)
      have hsame : ∀ v, SameThread map v s₁.mem
          (exec map.addr call (epilogue timing) none s₂).mem := fun v x hx =>
        hepilogue x fun w _ => map.ne_addr hx w
      have hregs : SameOn (.lr :: calleeSaved) s₂ (exec map.addr call (epilogue timing) none s₂) :=
        epilogue_sameOn timing
      refine ⟨⟨fun v c' hc' _ => (hsaved v c' hc').congr (hsame v), fun v c' hc' => ?_, ?_, ?_, ?_⟩,
        rfl, c, hc, hsavedu.resumed_of (hrestored.of_sameOn hregs) (hsame u)⟩
      · exact (hsaved v c' hc').mem
      · rintro v ⟨⟩
        exact hsome
      · rintro v ⟨⟩
        refine (hepilogue _ fun w hw h => ?_).trans hnext
        rw [← map.addr_injective h] at hw
        revert hw
        decide
      · exact fun h => absurd h (Option.some_ne_none u)

end Machine.Inv

theorem Reachable.inv (hM : Reachable map timing M) : M.Inv map := by
  induction hM with
  | reset cpu => exact ⟨nofun, nofun, nofun, nofun, nofun⟩
  | step hM h ih =>
      cases h with
      | spawn ht hnew hs h => exact ih.spawn ht hnew hs h
      | work h => exact ih.work h
      | resume h => exact (ih.resume h).1

/-- **A thread never notices a switch.**  Whatever has run in between, a thread that is resumed
finds the context it was suspended with, and the first time the frame it was created with. -/
theorem Reachable.resumed (hM : Reachable map timing M) (h : Resume map timing M u M') :
    M'.running = some u ∧ ∃ c, M'.last u = some c ∧ Resumed map u c M'.cpu :=
  (hM.inv.resume h).2

end Runs

/-! ### Two threads -/

section TwoThreads

def idleThread : Word := 0x20000000

def mainThread : Word := 0x20000100

def idleStack : Word := 0x20001000

def mainStack : Word := 0x20002000

/-- The regions of a program with two threads. -/
def twoThreadsRegion (x : Word) : Region :=
  if offset idleStack x < 256 then .stack idleThread
  else if offset mainStack x < 256 then .stack mainThread
  else if x = idleThread ∨ x = idleThread + 4 then .context idleThread
  else if x = mainThread ∨ x = mainThread + 4 then .context mainThread
  else
    match symbols.find? fun v => x = symbolAddr v with
    | some v => .symbol v
    | none => .other

lemma twoThreadsRegion_stack : twoThreadsRegion x = .stack t ↔
    offset idleStack x < 256 ∧ idleThread = t ∨ offset mainStack x < 256 ∧ mainThread = t := by
  have hdisjoint : ¬ (offset idleStack x < 256 ∧ offset mainStack x < 256) := by
    unfold offset idleStack mainStack
    bv_omega
  unfold twoThreadsRegion
  split
  · rename_i hidle
    have hmain : ¬ offset mainStack x < 256 := fun h => hdisjoint ⟨hidle, h⟩
    simp [hidle, hmain]
  · rename_i hidle
    split
    · rename_i hmain
      simp [hidle, hmain]
    · rename_i hmain
      split_ifs
      · simp [hidle, hmain]
      · simp [hidle, hmain]
      · split <;> simp [hidle, hmain]

/-- Two threads with stacks of 64 words. -/
def twoThreads : MemoryMap where
  addr := symbolAddr
  threads := [idleThread, mainThread]
  stack t := ⟨if t = idleThread then idleStack else mainStack, 64⟩
  region := twoThreadsRegion
  region_addr v := by cases v <;> decide
  region_context t ht := by
    rcases List.mem_pair.mp ht with rfl | rfl <;> decide
  region_stack t ht x := by
    have hne : mainThread ≠ idleThread := by decide
    rw [twoThreadsRegion_stack]
    rcases List.mem_pair.mp ht with rfl | rfl <;> simp [hne, hne.symm]

/-- Work that writes one variable. -/
lemma works_update {M : Machine} {v : Symbol} (hv : v ≠ .currentThreadCtx) (w : Word) :
    Works map M { M.cpu with mem := Function.update M.cpu.mem (map.addr v) w } where
  stack _ _ hx _ := Function.update_of_ne (map.ne_addr (.inl hx) v) _ _
  context _ _ hx := Function.update_of_ne (map.ne_addr (.inr hx) v) _ _
  current := Function.update_of_ne (fun h => hv (map.addr_injective h).symm) _ _

/-- A builder starts a thread. -/
lemma exists_spawn {M : Machine} (hM : Reachable twoThreads true M) (ht : t ∈ twoThreads.threads)
    (hnew : M.last t = none) : ∃ M', Reachable twoThreads true M' ∧ M'.running = M.running ∧
      (M'.last t).isSome ∧ ∀ u, u ≠ t → M'.last u = M.last u := by
  have hok := (Spawner.spawn_spec true ⟨M.cpu.mem, 0, fun _ => none⟩ t (twoThreads.stack t)
    ⟨"thread", 0x08000101, 0⟩ (.cfs 1)).2.2
  refine ⟨_, hM.step (.spawn ht hnew rfl (hok ?_ ?_)), rfl, ?_, fun u hu => ?_⟩
  · rcases List.mem_pair.mp ht with rfl | rfl
    · exact ⟨rfl, by decide, by decide, by decide, by decide⟩
    · exact ⟨rfl, by decide, by decide, by decide, by decide⟩
  · rcases List.mem_pair.mp ht with rfl | rfl <;> exact fun hend => absurd hend.2.2 (by decide)
  · exact congrArg Option.isSome (Function.update_self t _ M.last)
  · exact Function.update_of_ne hu _ M.last

/-- The idle thread runs, and its floating-point context is active. -/
lemma reachable_twoThreads : ∃ M, Reachable twoThreads true M ∧ M.running = some idleThread ∧
    (M.last mainThread).isSome ∧ Suspendable twoThreads idleThread M.cpu := by
  obtain ⟨M₁, hM₁, hrun₁, hidle₁, hlast₁⟩ := exists_spawn
    (.reset ⟨fun _ => 0, 0, 0, fun _ => 0, false, false, fun _ => 0⟩) List.mem_cons_self rfl
  obtain ⟨M₂, hM₂, hrun₂, hmain₂, hlast₂⟩ := exists_spawn hM₁
    (List.mem_cons_of_mem _ List.mem_cons_self) (hlast₁ mainThread (by decide))
  have hidle₂ : (M₂.last idleThread).isSome := by rwa [hlast₂ idleThread (by decide)]
  have hnone : M₂.running = none := hrun₂.trans hrun₁
  -- `START_THREAD_PTR` is set, and the first thread starts
  have hptr := hM₂.step (.work (works_update (v := .startThreadPtr) (by decide) idleThread))
  have hstart := hptr.step (.resume (.start (fun _ s => s) hnone hidle₂
    (Function.update_self (twoThreads.addr .startThreadPtr) idleThread M₂.cpu.mem)))
  obtain ⟨M₃, hM₃, hrun₃, hlast₃⟩ : ∃ M, Reachable twoThreads true M ∧
      M.running = some idleThread ∧ M.last = M₂.last := ⟨_, hstart, rfl, rfl⟩
  have hwork : Works twoThreads M₃
      ⟨fun _ => 0xFFFFFFED, 0, idleStack + 192, fun _ => 0, false, false, M₃.cpu.mem⟩ :=
    ⟨fun _ _ _ _ => rfl, fun _ _ _ => rfl, rfl⟩
  refine ⟨_, hM₃.step (.work hwork), hrun₃, by rwa [hlast₃], ?_, ?_, ?_⟩
  · change usesMsp 0xFFFFFFED = false
    decide
  · change savedBytes 0xFFFFFFED ≤ offset idleStack (idleStack + 192)
    decide
  · change offset idleStack (idleStack + 192) ≤ 4 * 64
    decide

/-- Both threads are started, and the second one takes over. -/
theorem resumed_twoThreads : ∃ M M', Resume twoThreads true M mainThread M' ∧
    M'.running = some mainThread ∧
    ∃ c, M'.last mainThread = some c ∧ Resumed twoThreads mainThread c M'.cpu := by
  obtain ⟨M, hM, hrun, hmain, hidle⟩ := reachable_twoThreads
  have hresume : Resume twoThreads true M mainThread _ := .switch
    (fun _ s =>
      { s with mem := Function.update s.mem (twoThreads.addr .currentThreadCtx) mainThread })
    hrun hidle (fun s x t hx => Function.update_of_ne (twoThreads.ne_addr hx _) _ _) hmain
    (Function.update_self (twoThreads.addr .currentThreadCtx) mainThread
      (run twoThreads.addr pendSVSave M.cpu).mem)
  exact ⟨M, _, hresume, hM.resumed hresume⟩

end TwoThreads

end Rtsched

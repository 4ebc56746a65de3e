import Rtsched.Arch.ThreadStack
import Rtsched.Kernel.State
import Rtsched.Lib.Runs

/-!
The thread builders of `src/thread.rs`: the checks they make, and what they write.  A builder whose
check fails panics; its result here is the `ThreadSpawnError` whose message the panic has.

A thread is named by the address of its storage, which starts with the `sp` and `exc_return` of its
`ThreadCtx`; the other fields are kept by that address.  The run queue and the timer of the new
thread are in `Sched.spawnCfs` and `Sched.spawnRt`.

* `Spawner.spawn_spec`: **a builder panics before it writes anything**, with the message of the
  first check that fails, or it starts the thread.
* `Spawner.run_ids`: in every run the threads are numbered in the order of their creation.
-/

namespace Rtsched

open Blocks

/-- `ThreadSpawnError`. -/
inductive ThreadSpawnError
  | nullThreadStorage
  | nullStack
  | stackTooSmall (requiredWords actualWords : ℕ)
  | unalignedStackTop
  | zeroPriority
  | nullRtTimer
  deriving DecidableEq, Repr

/-- `ThreadSpawnError::message`. -/
def ThreadSpawnError.message : ThreadSpawnError → String
  | nullThreadStorage => "thread storage pointer must be non-null"
  | nullStack => "thread stack pointer must be non-null"
  | stackTooSmall _ _ =>
      "thread stack must reserve at least 16 words for the initial platform frame"
  | unalignedStackTop => "thread stack top must be 8-byte aligned"
  | zeroPriority => "CFS thread priority must be non-zero"
  | nullRtTimer => "RT thread ktimer must be non-null"

/-- A `*mut AlignedStack<N>`: the address of the stack and its number of words. -/
structure StackPtr where
  base : Word
  words : ℕ
  deriving DecidableEq

/-- `AlignedStack::top`. -/
def StackPtr.top (p : StackPtr) : Word := p.base + BitVec.ofNat 32 (4 * p.words)

/-- `ThreadStart`. -/
structure ThreadStart where
  name : String
  entry : Word
  arg : Word
  deriving DecidableEq

/-- The class of a thread with its `InitArgs`: the priority of a CFS thread, the timer of an RT
thread. -/
inductive InitArgs
  | idle
  | cfs (priority : ℕ)
  | rt (ktimer : Word)
  deriving DecidableEq

/-- `ThreadControlBlock::KIND`. -/
def InitArgs.kind : InitArgs → ThreadKind
  | idle => .idle
  | cfs _ => .cfs
  | rt _ => .rt

/-- `validate_init_args`. -/
def InitArgs.validate : InitArgs → Except ThreadSpawnError Unit
  | idle => .ok ()
  | cfs priority => if priority = 0 then .error .zeroPriority else .ok ()
  | rt ktimer => if ktimer = 0 then .error .nullRtTimer else .ok ()

/-- `validate_thread_storage`. -/
def validateThreadStorage (thread : Word) : Except ThreadSpawnError Unit :=
  if thread = 0 then .error .nullThreadStorage else .ok ()

/-- `validate_stack`. -/
def validateStack (stack : StackPtr) : Except ThreadSpawnError Unit :=
  if stack.base = 0 then .error .nullStack
  else if stack.words < threadInitialFrameWords then
    .error (.stackTooSmall threadInitialFrameWords stack.words)
  else if stack.top &&& BitVec.ofNat 32 (threadStackAlignment - 1) ≠ 0 then
    .error .unalignedStackTop
  else .ok ()

/-- The fields of a `ThreadCtx` after `sp` and `exc_return`. -/
structure ThreadInfo where
  id : Word
  name : String
  state : ThreadState
  kind : ThreadKind
  deriving DecidableEq

/-- `NEXT_THREAD_ID`, the memory and the thread control blocks. -/
structure Spawner where
  mem : Mem
  nextThreadId : Word
  thread : Word → Option ThreadInfo

namespace Spawner

/-- `ThreadControlBlock::init`. -/
def init (s : Spawner) (thread : Word) (context : InitialThreadContext) (info : ThreadInfo)
    (args : InitArgs) : Spawner × Except ThreadSpawnError Word :=
  match args.validate with
  | .error e => (s, .error e)
  | .ok () =>
      ({ s with
          mem := storeWords s.mem thread [context.sp, context.excReturn]
          thread := Function.update s.thread thread (some info) }, .ok thread)

/-- `forkyi`; its debug assertions panic with the messages of the builders' checks. -/
def forkyi (debug : Bool) (s : Spawner) (thread sp : Word) (start : ThreadStart)
    (args : InitArgs) : Spawner × Except ThreadSpawnError Word :=
  if debug ∧ thread = 0 then (s, .error .nullThreadStorage)
  else if debug ∧ sp = 0 then (s, .error .nullStack)
  else if debug ∧ sp.toNat % threadStackAlignment ≠ 0 then (s, .error .unalignedStackTop)
  else
    let (m, context) := CortexM.initThreadStack s.mem sp start.entry start.arg
    let id := s.nextThreadId
    init { s with mem := m, nextThreadId := id + 1 } thread context
      ⟨id, start.name, .ready, args.kind⟩ args

/-- `spawn_thread`, which panics with the message of an error. -/
def spawnThread (debug : Bool) (s : Spawner) (thread : Word) (stack : StackPtr)
    (start : ThreadStart) (args : InitArgs) : Spawner × Except ThreadSpawnError Word :=
  let checks : Except ThreadSpawnError Unit := do
    args.validate
    validateThreadStorage thread
    validateStack stack
  match checks with
  | .error e => (s, .error e)
  | .ok () => s.forkyi debug thread stack.top start args

/-- `spawn_idle_thread`, which panics with the message of an error. -/
def spawnIdleThread (s : Spawner) (thread : Word) (stack : StackPtr) (start : ThreadStart) :
    Spawner × Except ThreadSpawnError Word :=
  let checks : Except ThreadSpawnError Unit := do
    validateThreadStorage thread
    validateStack stack
  match checks with
  | .error e => (s, .error e)
  | .ok () =>
      let (m, context) := CortexM.initThreadStack s.mem stack.top start.entry start.arg
      let id := s.nextThreadId
      ({ s with
          mem := storeWords m thread [context.sp, context.excReturn]
          nextThreadId := id + 1
          thread := Function.update s.thread thread (some ⟨id, start.name, .ready, .idle⟩) },
        .ok thread)

/-- The builder of a class. -/
def spawn (debug : Bool) (s : Spawner) (thread : Word) (stack : StackPtr) (start : ThreadStart) :
    InitArgs → Spawner × Except ThreadSpawnError Word
  | .idle => s.spawnIdleThread thread stack start
  | args => s.spawnThread debug thread stack start args

/-! ### What a builder does -/

variable {debug : Bool} {s s' : Spawner} {thread : Word} {stack : StackPtr} {start : ThreadStart}
  {args : InitArgs}

/-- The checks of a builder, in order. -/
def validate (thread : Word) (stack : StackPtr) (args : InitArgs) : Except ThreadSpawnError Unit :=
  args.validate >>= fun _ => validateThreadStorage thread >>= fun _ => validateStack stack

/-- The checks all pass. -/
structure Valid (thread : Word) (stack : StackPtr) (args : InitArgs) : Prop where
  args : args.validate = .ok ()
  thread : thread ≠ 0
  base : stack.base ≠ 0
  words : threadInitialFrameWords ≤ stack.words
  aligned : stack.top &&& BitVec.ofNat 32 (threadStackAlignment - 1) = 0

lemma validate_eq_ok : validate thread stack args = .ok () ↔ Valid thread stack args := by
  constructor
  · intro h
    simp only [validate, Outcome.bind_eq_ok, validateThreadStorage, validateStack] at h
    obtain ⟨⟨⟩, hargs, ⟨⟩, hthread, hstack⟩ := h
    split at hthread
    · cases hthread
    · rename_i hnull
      split at hstack
      · cases hstack
      · rename_i hbase
        split at hstack
        · cases hstack
        · rename_i hwords
          split at hstack
          · cases hstack
          · rename_i haligned
            exact ⟨hargs, hnull, hbase, not_lt.mp hwords, not_not.mp haligned⟩
  · rintro ⟨hargs, hthread, hbase, hwords, haligned⟩
    rw [validate, hargs, validateThreadStorage, if_neg hthread, validateStack, if_neg hbase,
      if_neg (not_lt.mpr hwords), if_neg (not_not.mpr haligned)]
    rfl

lemma alignDown_eq {sp : Word} (h : sp &&& BitVec.ofNat 32 (threadStackAlignment - 1) = 0) :
    alignDown sp = sp := by
  unfold alignDown
  ext i hi
  have hbit := congrArg (fun w : Word => w[i]) h
  simp only [BitVec.getElem_and, BitVec.getElem_not] at hbit ⊢
  revert hbit
  cases sp[i] <;> simp

lemma toNat_mod {sp : Word} (h : sp &&& BitVec.ofNat 32 (threadStackAlignment - 1) = 0) :
    sp.toNat % threadStackAlignment = 0 := by
  have hand : sp.toNat &&& (2 ^ 3 - 1) = 0 := congrArg BitVec.toNat h
  rwa [Nat.and_two_pow_sub_one_eq_mod] at hand

/-- The memory of a started thread: the frame at the top of its stack, and the first two fields of
its control block. -/
def startedMem (m : Mem) (thread : Word) (stack : StackPtr) (start : ThreadStart) : Mem :=
  storeWords (storeWords m (stack.top - 64) (initialFrame start.entry start.arg)) thread
    [stack.top - 64, excReturnThreadModePsp]

/-- The state after a thread has been started. -/
def started (s : Spawner) (thread : Word) (stack : StackPtr) (start : ThreadStart)
    (args : InitArgs) : Spawner where
  mem := startedMem s.mem thread stack start
  nextThreadId := s.nextThreadId + 1
  thread := Function.update s.thread thread
    (some ⟨s.nextThreadId, start.name, .ready, args.kind⟩)

lemma spawn_of_error {e : ThreadSpawnError} (he : validate thread stack args = .error e) :
    s.spawn debug thread stack start args = (s, .error e) := by
  cases args with
  | idle =>
      have hchecks : (validateThreadStorage thread >>= fun _ => validateStack stack) =
          .error e := he
      rw [spawn, spawnIdleThread, hchecks]
  | cfs priority =>
      unfold validate at he
      rw [spawn, spawnThread, he]
      exact fun h => InitArgs.noConfusion h
  | rt ktimer =>
      unfold validate at he
      rw [spawn, spawnThread, he]
      exact fun h => InitArgs.noConfusion h

/-- The checks pass, and the assertions of `forkyi` too. -/
lemma forkyi_of_valid (h : Valid thread stack args) (htop : debug = true → stack.top ≠ 0) :
    s.forkyi debug thread stack.top start args =
      (s.started thread stack start args, .ok thread) := by
  rw [forkyi, if_neg (fun hd => h.thread hd.2), if_neg (fun hd => htop hd.1 hd.2),
    if_neg (fun hd => hd.2 (toNat_mod h.aligned)), CortexM.initThreadStack_eq]
  simp only [startingStack, alignDown_eq h.aligned, init, h.args]
  rfl

lemma spawnThread_of_valid (h : Valid thread stack args) :
    s.spawnThread debug thread stack start args = s.forkyi debug thread stack.top start args := by
  have hchecks := validate_eq_ok.mpr h
  unfold validate at hchecks
  rw [spawnThread, hchecks]

lemma spawnIdleThread_of_valid (h : Valid thread stack .idle) :
    s.spawnIdleThread thread stack start = (s.started thread stack start .idle, .ok thread) := by
  have hchecks : (validateThreadStorage thread >>= fun _ => validateStack stack) = .ok () :=
    validate_eq_ok.mpr h
  rw [spawnIdleThread, hchecks]
  simp only [CortexM.initThreadStack_eq, startingStack, alignDown_eq h.aligned]
  rfl

/-- **What a builder does.**  If a check fails, it panics with the message of the first of them and
has written nothing; otherwise it starts the thread.  A stack that ends with the address space
passes the checks, and only a debug assertion of `forkyi` rejects it. -/
theorem spawn_spec (debug : Bool) (s : Spawner) (thread : Word) (stack : StackPtr)
    (start : ThreadStart) (args : InitArgs) :
    (∀ e, validate thread stack args = .error e →
      s.spawn debug thread stack start args = (s, .error e)) ∧
    (Valid thread stack args → debug = true ∧ args ≠ .idle ∧ stack.top = 0 →
      s.spawn debug thread stack start args = (s, .error .nullStack)) ∧
    (Valid thread stack args → ¬ (debug = true ∧ args ≠ .idle ∧ stack.top = 0) →
      s.spawn debug thread stack start args = (s.started thread stack start args, .ok thread)) := by
  refine ⟨fun e he => spawn_of_error he, ?_, ?_⟩
  · rintro hvalid ⟨rfl, hargs, htop⟩
    have hforkyi : s.forkyi true thread stack.top start args = (s, .error .nullStack) := by
      rw [forkyi, if_neg (fun hd => hvalid.thread hd.2), if_pos ⟨rfl, htop⟩]
    cases args with
    | idle => exact absurd rfl hargs
    | cfs priority => exact (spawnThread_of_valid hvalid).trans hforkyi
    | rt ktimer => exact (spawnThread_of_valid hvalid).trans hforkyi
  · intro hvalid hend
    cases args with
    | idle => exact spawnIdleThread_of_valid hvalid
    | cfs priority =>
        exact (spawnThread_of_valid hvalid).trans
          (forkyi_of_valid hvalid fun hd htop => hend ⟨hd, nofun, htop⟩)
    | rt ktimer =>
        exact (spawnThread_of_valid hvalid).trans
          (forkyi_of_valid hvalid fun hd htop => hend ⟨hd, nofun, htop⟩)

/-- A thread with two failing checks, one whose stack ends with the address space, in a debug build
and in another, and one that is started. -/
theorem spawn_spec_checks : ∃ s : Spawner,
    s.spawn true 0x20000000 ⟨0x20001000, 8⟩ ⟨"sensor", 0x08000101, 0⟩ (.cfs 0) =
        (s, .error .zeroPriority) ∧
      ThreadSpawnError.zeroPriority.message = "CFS thread priority must be non-zero" ∧
    s.spawn true 0x20000000 ⟨0x20001000, 8⟩ ⟨"sensor", 0x08000101, 0⟩ (.cfs 1) =
        (s, .error (.stackTooSmall 16 8)) ∧
    s.spawn true 0x20000000 ⟨0xFFFFFF00, 64⟩ ⟨"motor", 0x08000101, 0⟩ (.rt 0x20002000) =
        (s, .error .nullStack) ∧
    (s.spawn false 0x20000000 ⟨0xFFFFFF00, 64⟩ ⟨"motor", 0x08000101, 0⟩ (.rt 0x20002000)).2 =
        .ok 0x20000000 ∧
    s.spawn true 0x20000000 ⟨0x20001000, 64⟩ ⟨"sensor", 0x08000101, 0⟩ (.cfs 1) =
        (s.started 0x20000000 ⟨0x20001000, 64⟩ ⟨"sensor", 0x08000101, 0⟩ (.cfs 1),
          .ok 0x20000000) := by
  have hend : Valid 0x20000000 ⟨0xFFFFFF00, 64⟩ (.rt 0x20002000) :=
    ⟨rfl, by decide, by decide, by decide, by decide⟩
  refine ⟨⟨fun _ => 0, 0, fun _ => none⟩, (spawn_spec ..).1 _ rfl, rfl, (spawn_spec ..).1 _ rfl,
    (spawn_spec ..).2.1 hend (by decide), ?_,
    (spawn_spec ..).2.2 ⟨rfl, by decide, by decide, by decide, by decide⟩ (by decide)⟩
  rw [(spawn_spec ..).2.2 hend (by decide)]

/-- A builder that returns has started the thread. -/
lemma spawn_eq_ok {t : Word} (h : s.spawn debug thread stack start args = (s', .ok t)) :
    Valid thread stack args ∧ t = thread ∧ s' = s.started thread stack start args := by
  obtain ⟨herror, hend, hok⟩ := spawn_spec debug s thread stack start args
  cases hvalidate : validate thread stack args with
  | error e =>
      rw [herror e hvalidate] at h
      cases h
  | ok _ =>
      have hvalid : Valid thread stack args := validate_eq_ok.mp hvalidate
      by_cases htop : debug = true ∧ args ≠ .idle ∧ stack.top = 0
      · rw [hend hvalid htop] at h
        cases h
      · rw [hok hvalid htop] at h
        cases h
        exact ⟨hvalid, rfl, rfl⟩

/-- A builder that panics has written nothing. -/
lemma spawn_eq_error {e : ThreadSpawnError}
    (h : s.spawn debug thread stack start args = (s', .error e)) : s' = s := by
  obtain ⟨herror, hend, hok⟩ := spawn_spec debug s thread stack start args
  cases hvalidate : validate thread stack args with
  | error e =>
      rw [herror e hvalidate] at h
      exact (congrArg Prod.fst h).symm
  | ok _ =>
      have hvalid : Valid thread stack args := validate_eq_ok.mp hvalidate
      by_cases htop : debug = true ∧ args ≠ .idle ∧ stack.top = 0
      · rw [hend hvalid htop] at h
        exact (congrArg Prod.fst h).symm
      · rw [hok hvalid htop] at h
        cases h

/-! ### The numbers of the threads -/

/-- One step: a builder is called, or the program does something else, which renumbers no
thread.  The label is the thread that has been started. -/
inductive Step : Spawner → Option Word → Spawner → Prop
  | spawn {debug : Bool} {s s' : Spawner} {thread : Word} {stack : StackPtr} {start : ThreadStart}
      {args : InitArgs} {r : Except ThreadSpawnError Word}
      (h : s.spawn debug thread stack start args = (s', r)) : Step s r.toOption s'
  | other {s s' : Spawner} (hid : s'.nextThreadId = s.nextThreadId)
      (hthread : ∀ t, (s'.thread t).map ThreadInfo.id = (s.thread t).map ThreadInfo.id) :
      Step s none s'

/-- At the reset there is no thread, and `NEXT_THREAD_ID` is 0. -/
def Initial (s : Spawner) : Prop := s.nextThreadId = 0 ∧ s.thread = fun _ => none

/-- The threads that have been started, in order. -/
def startedThreads (l : List (Spawner × Option Word × Spawner)) : List Word :=
  l.filterMap fun p => p.2.1

/-- The threads are numbered by `ids`. -/
structure Numbered (ids : List Word) (s : Spawner) : Prop where
  next : s.nextThreadId = BitVec.ofNat 32 ids.length
  id : ∀ t i, (s.thread t).map ThreadInfo.id = some i →
    ∃ n, ids[n]? = some t ∧ i = BitVec.ofNat 32 n

lemma Numbered.started {ids : List Word} (h : Numbered ids s) :
    Numbered (ids ++ [thread]) (s.started thread stack start args) := by
  refine ⟨?_, fun t i hi => ?_⟩
  · rw [Spawner.started, h.next, List.length_append, List.length_singleton, BitVec.ofNat_add]
    rfl
  · by_cases ht : t = thread
    · subst ht
      have hself : (s.started t stack start args).thread t =
          some ⟨s.nextThreadId, start.name, .ready, args.kind⟩ := Function.update_self ..
      rw [hself] at hi
      obtain rfl := Option.some.inj hi
      exact ⟨ids.length, List.getElem?_concat_length, h.next⟩
    · have hother : (s.started thread stack start args).thread t = s.thread t :=
        Function.update_of_ne ht ..
      rw [hother] at hi
      obtain ⟨n, hn, rfl⟩ := h.id t i hi
      have hlt := (List.getElem?_eq_some_iff.mp hn).choose
      exact ⟨n, by rw [List.getElem?_append_left hlt, hn], rfl⟩

/-- The step lemma of the numbering. -/
lemma Numbered.step {ids : List Word} {e : Option Word} (h : Numbered ids s) (hs : Step s e s') :
    Numbered (ids ++ e.toList) s' := by
  cases hs with
  | @spawn debug _ _ thread stack start args r hspawn =>
      cases r with
      | error e =>
          obtain rfl := spawn_eq_error hspawn
          exact (List.append_nil ids).symm ▸ h
      | ok t =>
          obtain ⟨-, rfl, rfl⟩ := spawn_eq_ok hspawn
          exact h.started
  | other hid hthread =>
      refine ⟨by simpa using hid.trans h.next, fun t i hi => ?_⟩
      rw [hthread] at hi
      simpa using h.id t i hi

/-- **The threads are numbered in the order of their creation**: a builder that panics takes no
number, and as long as the numbers do not wrap around, no two threads share one. -/
theorem run_ids {l : List (Spawner × Option Word × Spawner)} (h : Runs.Run Initial Step l s) :
    s.nextThreadId = BitVec.ofNat 32 (startedThreads l).length ∧
    (∀ t info, s.thread t = some info →
      ∃ n, (startedThreads l)[n]? = some t ∧ info.id = BitVec.ofNat 32 n) ∧
    ((startedThreads l).length ≤ 2 ^ 32 → ∀ t t' info info', s.thread t = some info →
      s.thread t' = some info' → info.id = info'.id → t = t') := by
  have hnumbered : Numbered (startedThreads l) s := by
    induction h with
    | start h => exact ⟨h.1, fun t i hi => by simp [h.2] at hi⟩
    | @step l s s' e _ hs ih =>
        have hlast : startedThreads (l ++ [(s, e, s')]) = startedThreads l ++ e.toList := by
          cases e <;> simp [startedThreads]
        rw [hlast]
        exact ih.step hs
  have hid : ∀ t info, s.thread t = some info →
      ∃ n, (startedThreads l)[n]? = some t ∧ info.id = BitVec.ofNat 32 n := fun t info hinfo =>
    hnumbered.id t info.id (by rw [hinfo]; rfl)
  refine ⟨hnumbered.next, hid, fun hlen t t' info info' hinfo hinfo' heq => ?_⟩
  obtain ⟨n, hn, hidn⟩ := hid t info hinfo
  obtain ⟨n', hn', hidn'⟩ := hid t' info' hinfo'
  have hlt := (List.getElem?_eq_some_iff.mp hn).choose
  have hlt' := (List.getElem?_eq_some_iff.mp hn').choose
  have hnn : n = n' := by
    have hnat := congrArg BitVec.toNat (hidn.symm.trans (heq.trans hidn'))
    rwa [BitVec.toNat_ofNat, BitVec.toNat_ofNat, Nat.mod_eq_of_lt (hlt.trans_le hlen),
      Nat.mod_eq_of_lt (hlt'.trans_le hlen)] at hnat
  subst hnn
  exact Option.some.inj (hn.symm.trans hn')

theorem run_ids_failed : ∃ l s, Runs.Run Initial Step l s ∧ l.length = 2 ∧
    startedThreads l = [0x20000000] ∧
    s.nextThreadId = BitVec.ofNat 32 (startedThreads l).length := by
  have hinit : Runs.Run Initial Step [] ⟨fun _ => 0, 0, fun _ => none⟩ := .start ⟨rfl, rfl⟩
  have hfailed := hinit.step (.spawn ((spawn_spec true _ 0x20000000 ⟨0x20001000, 8⟩
    ⟨"main", 0x08000101, 0⟩ (.cfs 1)).1 _ rfl))
  have hrun := hfailed.step (.spawn ((spawn_spec true _ 0x20000000 ⟨0x20001000, 64⟩
    ⟨"main", 0x08000101, 0⟩ (.cfs 1)).2.2 ⟨rfl, by decide, by decide, by decide, by decide⟩
    (by decide)))
  exact ⟨_, _, hrun, rfl, rfl, (run_ids hrun).1⟩

end Spawner

end Rtsched

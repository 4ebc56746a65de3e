import Mathlib.Logic.Function.Basic
import Rtsched.Lib.ReentrantLock

/-!
The critical sections of the host port, `src/arch/host/platform.rs` and `src/test_support.rs`: a
mutex, and for each thread a count of the calls it is in, so that a nested call takes no lock.

Any number of threads take their steps in any order; a body may panic, which poisons the mutex.

* `HostStep`, `TestStep`: the steps of `host_critical_section` and of
  `test_support::critical_section`.
* `run_reentrant`: **both are reentrant locks**.  The bodies are entered and left as those of an
  abstract reentrant lock are, and a thread that waits for the mutex waits for another thread.
-/

namespace Rtsched

open Runs ReentrantLock

/-- Where a thread is in a call that takes the mutex, if it is not in a body or outside. -/
inductive Point
  /-- In a body, or in no call. -/
  | code
  /-- About to lock the mutex. -/
  | lock
  /-- Before `depth.set(1)`. -/
  | set
  /-- The mutex is unlocked and the guard of the depth is not yet dropped. -/
  | guard
  /-- The guard of the depth is dropped and the mutex is still locked. -/
  | unlock
  deriving DecidableEq

/-- The mutex, the depths of the threads, and where each thread is: `calls` has the value of
`nested` for every body that the thread is in, the innermost first. -/
structure Sections (ι : Type) where
  lock : Option ι
  poisoned : Bool
  depth : ι → ℕ
  calls : ι → List Bool
  point : ι → Point

/-- A step enters or leaves a body, or neither. -/
inductive SectionEvent (ι : Type)
  | use (u : LockUse ι)
  | inner (i : ι)

/-- The thread that makes the step. -/
def SectionEvent.thread {ι : Type} : SectionEvent ι → ι
  | use (.enter i) | use (.leave i) | inner i => i

/-- The use of the lock that a step is. -/
def SectionEvent.shown {ι : Type} : SectionEvent ι → Option (LockUse ι)
  | use u => some u
  | inner _ => none

variable {ι : Type} [DecidableEq ι]

namespace Sections

variable (s : Sections ι) (i : ι)

@[simp] def setDepth (n : ℕ) : Sections ι := { s with depth := Function.update s.depth i n }

@[simp] def setCalls (l : List Bool) : Sections ι := { s with calls := Function.update s.calls i l }

@[simp] def setPoint (p : Point) : Sections ι := { s with point := Function.update s.point i p }

end Sections

/-- `host_critical_section`: the depth counts the call before it takes the mutex, and the mutex is
unlocked before the guard of the depth is dropped. -/
inductive HostStep : Sections ι → SectionEvent ι → Sections ι → Prop
  | nested {s : Sections ι} (i : ι) (hpoint : s.point i = .code) (hdepth : 0 < s.depth i) :
      HostStep s (.use (.enter i))
        ((s.setDepth i (s.depth i + 1)).setCalls i (true :: s.calls i))
  | outer {s : Sections ι} (i : ι) (hpoint : s.point i = .code) (hdepth : ¬ 0 < s.depth i) :
      HostStep s (.inner i) ((s.setDepth i (s.depth i + 1)).setPoint i .lock)
  -- a poisoned mutex is locked as well
  | lock {s : Sections ι} (i : ι) (hpoint : s.point i = .lock) (hlock : s.lock = none) :
      HostStep s (.use (.enter i))
        (({ s with lock := some i }.setCalls i (false :: s.calls i)).setPoint i .code)
  | leaveNested {s : Sections ι} (i : ι) (l : List Bool) (hpoint : s.point i = .code)
      (hcalls : s.calls i = true :: l) :
      HostStep s (.use (.leave i)) ((s.setCalls i l).setDepth i (s.depth i - 1))
  | unlock {s : Sections ι} (i : ι) (l : List Bool) (panics : Bool) (hpoint : s.point i = .code)
      (hcalls : s.calls i = false :: l) :
      HostStep s (.use (.leave i)) (({ s with
        lock := none
        poisoned := s.poisoned || panics }.setCalls i l).setPoint i .guard)
  | dropDepth {s : Sections ι} (i : ι) (hpoint : s.point i = .guard) :
      HostStep s (.inner i) ((s.setDepth i (s.depth i - 1)).setPoint i .code)

/-- `test_support::critical_section`: the depth is set when the mutex is locked, and the mutex is
unlocked last. -/
inductive TestStep : Sections ι → SectionEvent ι → Sections ι → Prop
  | nested {s : Sections ι} (i : ι) (hpoint : s.point i = .code) (hdepth : 0 < s.depth i) :
      TestStep s (.use (.enter i))
        ((s.setDepth i (s.depth i + 1)).setCalls i (true :: s.calls i))
  | outer {s : Sections ι} (i : ι) (hpoint : s.point i = .code) (hdepth : ¬ 0 < s.depth i) :
      TestStep s (.inner i) (s.setPoint i .lock)
  | lock {s : Sections ι} (i : ι) (hpoint : s.point i = .lock) (hlock : s.lock = none) :
      TestStep s (.inner i) ({ s with lock := some i }.setPoint i .set)
  | setDepth {s : Sections ι} (i : ι) (hpoint : s.point i = .set) :
      TestStep s (.use (.enter i))
        (((s.setDepth i 1).setCalls i (false :: s.calls i)).setPoint i .code)
  | leaveNested {s : Sections ι} (i : ι) (l : List Bool) (hpoint : s.point i = .code)
      (hcalls : s.calls i = true :: l) :
      TestStep s (.use (.leave i)) ((s.setCalls i l).setDepth i (s.depth i - 1))
  | dropDepth {s : Sections ι} (i : ι) (l : List Bool) (hpoint : s.point i = .code)
      (hcalls : s.calls i = false :: l) :
      TestStep s (.use (.leave i))
        (((s.setCalls i l).setDepth i (s.depth i - 1)).setPoint i .unlock)
  | unlock {s : Sections ι} (i : ι) (panics : Bool) (hpoint : s.point i = .unlock) :
      TestStep s (.inner i)
        ({ s with lock := none, poisoned := s.poisoned || panics }.setPoint i .code)

/-- The two critical sections. -/
inductive HostBuild
  | test
  | support
  deriving DecidableEq

/-- The steps of a build. -/
def HostBuild.Step : HostBuild → Sections ι → SectionEvent ι → Sections ι → Prop
  | test => HostStep
  | support => TestStep

/-- No thread is in a call. -/
structure Sections.Initial (s : Sections ι) : Prop where
  lock : s.lock = none
  depth : ∀ i, s.depth i = 0
  calls : ∀ i, s.calls i = []
  point : ∀ i, s.point i = .code

/-! ### The abstract lock -/

/-- The bodies that a thread is in which has entered `n` times. -/
def callsOf : ℕ → List Bool
  | 0 => []
  | 1 => [false]
  | n + 2 => true :: callsOf (n + 1)

/-- By how much the depth is ahead of the bodies. -/
def HostBuild.ahead : HostBuild → Point → ℕ
  | test, p => if p = .code then 0 else 1
  | support, _ => 0

/-- Whether the mutex is locked at a point outside the bodies. -/
def HostBuild.locks : HostBuild → Point → Bool
  | test, _ => false
  | support, p => p = .set || p = .unlock

/-- The bodies, the depths and the mutex are those of a held lock. -/
structure Shows (b : HostBuild) (s : Sections ι) (a : Holding ι) : Prop where
  calls : ∀ i, s.calls i = callsOf (held a i)
  depth : ∀ i, s.depth i = held a i + b.ahead (s.point i)
  code : ∀ i, held a i ≠ 0 → s.point i = .code
  lock : ∀ i, s.lock = some i ↔ held a i ≠ 0 ∨ b.locks (s.point i) = true

variable {b : HostBuild} {s s' : Sections ι} {a a' : Holding ι} {i j : ι} {n : ℕ}

@[simp] lemma held_some_self : held (some (i, n)) i = n + 1 := if_pos rfl

lemma held_some_of_ne (h : j ≠ i) : held (some (i, n)) j = 0 := if_neg h

@[simp] lemma held_none : held (none : Holding ι) i = 0 := rfl

lemma eq_some_of_held (h : held a i = n + 1) : a = some (i, n) := by
  cases a with
  | none => cases h
  | some p =>
      obtain ⟨j, m⟩ := p
      simp only [held] at h
      split at h
      · rename_i hij
        rw [hij, Nat.succ.inj h]
      · cases h

/-- What a step of the thread `i` leaves alone. -/
structure OtherThreads (i : ι) (s s' : Sections ι) (a a' : Holding ι) : Prop where
  held : ∀ j, j ≠ i → held a' j = held a j
  calls : ∀ j, j ≠ i → s'.calls j = s.calls j
  depth : ∀ j, j ≠ i → s'.depth j = s.depth j
  point : ∀ j, j ≠ i → s'.point j = s.point j
  lock : ∀ j, j ≠ i → (s'.lock = some j ↔ s.lock = some j)

/-- One thread has made a step. -/
lemma Shows.of_thread (h : Shows b s a) (ho : OtherThreads i s s' a a')
    (hcalls : s'.calls i = callsOf (held a' i))
    (hdepth : s'.depth i = held a' i + b.ahead (s'.point i))
    (hcode : held a' i ≠ 0 → s'.point i = .code)
    (hlock : s'.lock = some i ↔ held a' i ≠ 0 ∨ b.locks (s'.point i) = true) : Shows b s' a' where
  calls j := by
    by_cases hj : j = i
    · rwa [hj]
    · rw [ho.calls j hj, ho.held j hj, h.calls]
  depth j := by
    by_cases hj : j = i
    · rwa [hj]
    · rw [ho.depth j hj, ho.held j hj, ho.point j hj, h.depth]
  code j := by
    by_cases hj : j = i
    · rwa [hj]
    · rw [ho.held j hj, ho.point j hj]
      exact h.code j
  lock j := by
    by_cases hj : j = i
    · rwa [hj]
    · rw [ho.lock j hj, ho.held j hj, ho.point j hj, h.lock]

@[simp] lemma ahead_code : b.ahead .code = 0 := by cases b <;> rfl

@[simp] lemma locks_code : b.locks .code = false := by cases b <;> rfl

/-- In its own code or in a body, a thread has as much depth as it has bodies. -/
lemma Shows.depth_code (h : Shows b s a) (hpoint : s.point i = .code) : s.depth i = held a i := by
  rw [h.depth, hpoint, ahead_code, Nat.add_zero]

/-- A free mutex is a free lock. -/
lemma Shows.eq_none (h : Shows b s a) (hlock : s.lock = none) : a = none := by
  cases a with
  | none => rfl
  | some p =>
      have hheld := (h.lock p.1).mpr (Or.inl (by simp [held]))
      rw [hlock] at hheld
      cases hheld

/-- A thread at a place where it does not hold the lock. -/
lemma Shows.held_eq_zero (h : Shows b s a) (hpoint : s.point i ≠ .code) : held a i = 0 :=
  not_not.mp fun hheld => hpoint (h.code i hheld)

/-- Outside the bodies a thread has the mutex locked only while no thread holds the lock. -/
lemma Shows.eq_none_of_locks (h : Shows b s a) (hpoint : s.point i ≠ .code)
    (hlocks : b.locks (s.point i) = true) : s.lock = some i ∧ a = none := by
  have hlock := (h.lock i).mpr (Or.inr hlocks)
  refine ⟨hlock, ?_⟩
  cases a with
  | none => rfl
  | some p =>
      have hheld := (h.lock p.1).mpr (Or.inl (by simp [held]))
      rw [hlock, Option.some.injEq] at hheld
      exact absurd (h.code p.1 (by simp [held])) (hheld ▸ hpoint)

/-- The bodies of a thread in a nested call. -/
lemma Shows.eq_some_succ (h : Shows b s a) {l : List Bool} (hcalls : s.calls i = true :: l) :
    ∃ n, a = some (i, n + 1) ∧ l = callsOf (n + 1) := by
  have hcallsOf : callsOf (held a i) = true :: l := (h.calls i).symm.trans hcalls
  match hk : held a i with
  | 0 =>
      rw [hk] at hcallsOf
      cases hcallsOf
  | 1 =>
      rw [hk] at hcallsOf
      cases hcallsOf
  | n + 2 =>
      rw [hk] at hcallsOf
      exact ⟨n, eq_some_of_held hk, (List.cons.inj hcallsOf).2.symm⟩

/-- The outermost body of a thread is the only one. -/
lemma Shows.eq_some_zero (h : Shows b s a) {l : List Bool} (hcalls : s.calls i = false :: l) :
    a = some (i, 0) ∧ l = [] := by
  have hcallsOf : callsOf (held a i) = false :: l := (h.calls i).symm.trans hcalls
  match hk : held a i with
  | 0 =>
      rw [hk] at hcallsOf
      cases hcallsOf
  | 1 =>
      rw [hk] at hcallsOf
      exact ⟨eq_some_of_held hk, (List.cons.inj hcallsOf).2.symm⟩
  | n + 2 =>
      rw [hk] at hcallsOf
      cases hcallsOf

/-- A nested call. -/
lemma Shows.nested (h : Shows b s a) (hpoint : s.point i = .code) (hdepth : 0 < s.depth i) :
    ∃ a', LockStep a (.enter i) a' ∧
      Shows b ((s.setDepth i (s.depth i + 1)).setCalls i (true :: s.calls i)) a' := by
  have hheld := h.depth_code hpoint
  obtain ⟨n, hn⟩ : ∃ n, held a i = n + 1 := Nat.exists_eq_succ_of_ne_zero (by omega)
  obtain rfl := eq_some_of_held hn
  have hcalls : s.calls i = callsOf (n + 1) := by rw [h.calls, hn]
  have hlock := h.lock i
  refine ⟨_, .enter i n, h.of_thread (i := i) ?_ ?_ ?_ (fun _ => hpoint) ?_⟩
  · constructor <;> intro j hj <;> simp [held_some_of_ne hj, hj]
  · simp [hcalls, callsOf]
  · simp [hpoint, hheld]
  · simpa using hlock

/-- The end of a nested call. -/
lemma Shows.leaveNested (h : Shows b s a) {l : List Bool} (hpoint : s.point i = .code)
    (hcalls : s.calls i = true :: l) :
    ∃ a', LockStep a (.leave i) a' ∧
      Shows b ((s.setCalls i l).setDepth i (s.depth i - 1)) a' := by
  obtain ⟨n, rfl, rfl⟩ := h.eq_some_succ hcalls
  have hheld := h.depth_code hpoint
  have hlock := h.lock i
  refine ⟨_, .leave i n, h.of_thread (i := i) ?_ ?_ ?_ (fun _ => hpoint) ?_⟩
  · constructor <;> intro j hj <;> simp [held_some_of_ne hj, hj]
  · simp
  · simp [hpoint, hheld]
  · simpa using hlock

/-- The steps of `host_critical_section`. -/
lemma Shows.hostStep (h : Shows .test s a) {e : SectionEvent ι} (hs : HostStep s e s') :
    (e.shown = none → Shows .test s' a) ∧
    ∀ u, e.shown = some u → ∃ a', LockStep a u a' ∧ Shows .test s' a' := by
  cases hs with
  | nested i hpoint hdepth =>
      refine ⟨nofun, fun u hu => ?_⟩
      obtain rfl := Option.some.inj hu
      exact h.nested hpoint hdepth
  | leaveNested i l hpoint hcalls =>
      refine ⟨nofun, fun u hu => ?_⟩
      obtain rfl := Option.some.inj hu
      exact h.leaveNested hpoint hcalls
  | outer i hpoint hdepth =>
      have hzero : held a i = 0 := by
        have hd := h.depth_code hpoint
        omega
      have hcalls := h.calls i
      have hlock := h.lock i
      refine ⟨fun _ => h.of_thread (i := i) ?_ ?_ ?_ (absurd hzero) ?_, nofun⟩
      · constructor <;> intro j hj <;> simp [hj]
      · simpa using hcalls
      · simp [hzero, HostBuild.ahead,
          Nat.eq_zero_of_not_pos hdepth]
      · simpa [hpoint, HostBuild.locks] using hlock
  | lock i hpoint hlock =>
      refine ⟨nofun, fun u hu => ?_⟩
      obtain rfl := Option.some.inj hu
      obtain rfl := h.eq_none hlock
      have hcalls : s.calls i = [] := h.calls i
      have hdepth := h.depth i
      refine ⟨_, .acquire i, h.of_thread (i := i) ?_ ?_ ?_ (fun _ => ?_) ?_⟩
      · constructor <;> intro j hj <;> simp [held_some_of_ne hj, hj, Ne.symm hj, hlock]
      · simp [hcalls, callsOf]
      · simpa [hpoint, HostBuild.ahead] using hdepth
      · simp
      · simp
  | unlock i l panics hpoint hcalls =>
      refine ⟨nofun, fun u hu => ?_⟩
      obtain rfl := Option.some.inj hu
      obtain ⟨rfl, rfl⟩ := h.eq_some_zero hcalls
      have hdepth := h.depth_code hpoint
      have hlock : s.lock = some i := (h.lock i).mpr (Or.inl (by simp))
      refine ⟨_, .release i, h.of_thread (i := i) ?_ ?_ ?_ (fun hne => absurd rfl hne) ?_⟩
      · constructor <;> intro j hj <;> simp [held_some_of_ne hj, hj, Ne.symm hj, hlock]
      · simp [callsOf]
      · simp [HostBuild.ahead, hdepth]
      · simp [HostBuild.locks]
  | dropDepth i hpoint =>
      have hzero : held a i = 0 := h.held_eq_zero (by simp [hpoint])
      have hcalls := h.calls i
      have hdepth := h.depth i
      have hlock := h.lock i
      refine ⟨fun _ => h.of_thread (i := i) ?_ ?_ ?_ (absurd hzero) ?_, nofun⟩
      · constructor <;> intro j hj <;> simp [hj]
      · simpa using hcalls
      · simp [hzero, hdepth, hpoint, HostBuild.ahead]
      · simpa [hpoint, HostBuild.locks] using hlock

/-- The steps of `test_support::critical_section`. -/
lemma Shows.testStep (h : Shows .support s a) {e : SectionEvent ι} (hs : TestStep s e s') :
    (e.shown = none → Shows .support s' a) ∧
    ∀ u, e.shown = some u → ∃ a', LockStep a u a' ∧ Shows .support s' a' := by
  cases hs with
  | nested i hpoint hdepth =>
      refine ⟨nofun, fun u hu => ?_⟩
      obtain rfl := Option.some.inj hu
      exact h.nested hpoint hdepth
  | leaveNested i l hpoint hcalls =>
      refine ⟨nofun, fun u hu => ?_⟩
      obtain rfl := Option.some.inj hu
      exact h.leaveNested hpoint hcalls
  | outer i hpoint hdepth =>
      have hzero : held a i = 0 := by
        have hd := h.depth_code hpoint
        omega
      have hcalls := h.calls i
      have hdepth' := h.depth i
      have hlock := h.lock i
      refine ⟨fun _ => h.of_thread (i := i) ?_ ?_ ?_ (absurd hzero) ?_, nofun⟩
      · constructor <;> intro j hj <;> simp [hj]
      · simpa using hcalls
      · simpa [HostBuild.ahead] using hdepth'
      · simpa [hpoint, HostBuild.locks] using hlock
  | lock i hpoint hlock =>
      obtain rfl := h.eq_none hlock
      have hcalls := h.calls i
      have hdepth := h.depth i
      refine ⟨fun _ => h.of_thread (i := i) ?_ ?_ ?_ (fun hne => absurd rfl hne) ?_, nofun⟩
      · constructor <;> intro j hj <;> simp [hj, Ne.symm hj, hlock]
      · simpa using hcalls
      · simpa [HostBuild.ahead] using hdepth
      · simp [HostBuild.locks]
  | setDepth i hpoint =>
      refine ⟨nofun, fun u hu => ?_⟩
      obtain rfl := Option.some.inj hu
      obtain ⟨hlock, rfl⟩ := h.eq_none_of_locks (i := i) (by simp [hpoint])
        (by simp [hpoint, HostBuild.locks])
      have hcalls : s.calls i = [] := h.calls i
      refine ⟨_, .acquire i, h.of_thread (i := i) ?_ ?_ ?_ (fun _ => ?_) ?_⟩
      · constructor <;> intro j hj <;> simp [held_some_of_ne hj, hj]
      · simp [hcalls, callsOf]
      · simp
      · simp
      · simp [hlock]
  | dropDepth i l hpoint hcalls =>
      refine ⟨nofun, fun u hu => ?_⟩
      obtain rfl := Option.some.inj hu
      obtain ⟨rfl, rfl⟩ := h.eq_some_zero hcalls
      have hdepth := h.depth_code hpoint
      have hlock : s.lock = some i := (h.lock i).mpr (Or.inl (by simp))
      refine ⟨_, .release i, h.of_thread (i := i) ?_ ?_ ?_ (fun hne => absurd rfl hne) ?_⟩
      · constructor <;> intro j hj <;> simp [held_some_of_ne hj, hj]
      · simp [callsOf]
      · simp [HostBuild.ahead, hdepth]
      · simp [HostBuild.locks, hlock]
  | unlock i panics hpoint =>
      obtain ⟨hlock, rfl⟩ := h.eq_none_of_locks (i := i) (by simp [hpoint])
        (by simp [hpoint, HostBuild.locks])
      have hcalls := h.calls i
      have hdepth := h.depth i
      refine ⟨fun _ => h.of_thread (i := i) ?_ ?_ ?_ (fun hne => absurd rfl hne) ?_, nofun⟩
      · constructor <;> intro j hj <;> simp [hj, Ne.symm hj, hlock]
      · simpa using hcalls
      · simpa [HostBuild.ahead] using hdepth
      · simp [HostBuild.locks]

/-! ### The runs -/

lemma Shows.of_initial (h : s.Initial) : Shows b s none where
  calls := h.calls
  depth i := by rw [h.depth, h.point, ahead_code, held_none]
  code i hne := absurd rfl hne
  lock i := by simp [h.lock, h.point]

/-- A build simulates the abstract lock. -/
lemma simulates (b : HostBuild) : Simulates Sections.Initial (b.Step (ι := ι)) (fun a => a = none)
    LockStep SectionEvent.shown (Shows b) := by
  have hstep : ∀ {s s' : Sections ι} {a : Holding ι} {e : SectionEvent ι}, Shows b s a →
      b.Step s e s' → (e.shown = none → Shows b s' a) ∧
        ∀ u, e.shown = some u → ∃ a', LockStep a u a' ∧ Shows b s' a' := by
    intro s s' a e h hs
    cases b with
    | test => exact h.hostStep hs
    | support => exact h.testStep hs
  exact ⟨fun s hs => ⟨none, rfl, .of_initial hs⟩, fun s e s' a h hs he => (hstep h hs).1 he,
    fun s e s' u a h hs he => (hstep h hs).2 u he⟩

@[simp] lemma length_callsOf (n : ℕ) : (callsOf n).length = n := by
  induction n using callsOf.induct with
  | case1 => rfl
  | case2 => rfl
  | case3 n ih => rw [callsOf, List.length_cons, ih]

/-- The bodies of a thread are those that it has entered and not left. -/
lemma Shows.balance (h : Shows b s a) {l : List (Holding ι × LockUse ι × Holding ι)}
    (hrun : LockRun l a) (i : ι) :
    (labels l).count (.leave i) + (s.calls i).length = (labels l).count (.enter i) := by
  rw [h.calls, length_callsOf]
  exact hrun.balance i

/-- The thread that has locked the mutex can make a step. -/
lemma Shows.progress (h : Shows b s a) (hlock : s.lock = some i) :
    ∃ e s', b.Step s e s' ∧ e.thread = i := by
  rcases (h.lock i).mp hlock with hheld | hlocks
  · have hpoint := h.code i hheld
    cases hcalls : s.calls i with
    | nil =>
        have hlength := congrArg List.length ((h.calls i).symm.trans hcalls)
        rw [length_callsOf] at hlength
        exact absurd hlength hheld
    | cons nested l =>
        cases b with
        | test =>
            cases nested with
            | true => exact ⟨_, _, .leaveNested i l hpoint hcalls, rfl⟩
            | false => exact ⟨_, _, .unlock i l false hpoint hcalls, rfl⟩
        | support =>
            cases nested with
            | true => exact ⟨_, _, .leaveNested i l hpoint hcalls, rfl⟩
            | false => exact ⟨_, _, .dropDepth i l hpoint hcalls, rfl⟩
  · cases b with
    | test => cases hlocks
    | support =>
        simp only [HostBuild.locks, Bool.or_eq_true, decide_eq_true_eq] at hlocks
        rcases hlocks with hpoint | hpoint
        · exact ⟨_, _, .setDepth i hpoint, rfl⟩
        · exact ⟨_, _, .unlock i false hpoint, rfl⟩

/-- **The critical sections are reentrant locks.**  Whatever the interleaving, the nesting and the
panics: the bodies are entered and left in the order of a run of the abstract lock; a thread is in
those that it has entered and not left, and at most one thread is in a body; the depths count the
bodies; and a thread that waits for the mutex waits for another thread, which can make a step. -/
theorem run_reentrant {l : List (Sections ι × SectionEvent ι × Sections ι)}
    (h : Run Sections.Initial b.Step l s) :
    (∃ l' a, LockRun l' a ∧ labels l' = (labels l).filterMap SectionEvent.shown) ∧
    (∀ i, ((labels l).filterMap SectionEvent.shown).count (.leave i) + (s.calls i).length =
      ((labels l).filterMap SectionEvent.shown).count (.enter i)) ∧
    (∀ i j, s.calls i ≠ [] → s.calls j ≠ [] → i = j) ∧
    (∀ i, s.depth i = (s.calls i).length + b.ahead (s.point i)) ∧
    ∀ i, s.point i = .lock → s.lock ≠ some i ∧
      ∀ j, s.lock = some j → ∃ e s', b.Step s e s' ∧ e.thread = j := by
  obtain ⟨l', a, hrun, hshows, hlabels⟩ := (simulates b).run h
  have hbalance := hshows.balance hrun
  have hentered : ∀ i, s.calls i ≠ [] →
      (labels l').count (.leave i) < (labels l').count (.enter i) := by
    intro i hi
    have hpos := List.length_pos_iff.mpr hi
    have hcount := hbalance i
    omega
  refine ⟨⟨l', a, hrun, hlabels⟩, fun i => hlabels ▸ hbalance i,
    fun i j hi hj => LockRun.exclusive hrun (hentered i hi) (hentered j hj), fun i => ?_,
    fun i hpoint => ⟨fun hlock => ?_, fun j hlock => hshows.progress hlock⟩⟩
  · rw [hshows.depth, hshows.calls, length_callsOf]
  · have hzero := hshows.held_eq_zero (i := i) (by simp [hpoint])
    rcases (hshows.lock i).mp hlock with hheld | hlocks
    · exact hheld hzero
    · rw [hpoint] at hlocks
      cases b <;> cases hlocks

/-- One thread is in a nested body while another one waits. -/
theorem run_reentrant_waiting : ∃ (l : List (Sections Bool × SectionEvent Bool × Sections Bool))
    (s : Sections Bool), Run Sections.Initial HostBuild.test.Step l s ∧
      s.calls false = [true, false] ∧ s.point true = .lock ∧
      ∃ e s', HostStep s e s' ∧ e.thread = false := by
  have hinit : (⟨none, false, fun _ => 0, fun _ => [], fun _ => .code⟩ : Sections Bool).Initial :=
    ⟨rfl, fun _ => rfl, fun _ => rfl, fun _ => rfl⟩
  have hrun : Run Sections.Initial HostBuild.test.Step _ _ :=
    ((((Run.start hinit).step (HostStep.outer false rfl (by decide))).step
      (HostStep.lock false rfl rfl)).step (HostStep.outer true rfl (by decide))).step
      (HostStep.nested false rfl (by decide))
  exact ⟨_, _, hrun, rfl, rfl, ((run_reentrant hrun).2.2.2.2 true rfl).2 false rfl⟩

end Rtsched

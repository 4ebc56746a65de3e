import Mathlib.Data.List.Count
import Rtsched.Lib.Simulation

/-!
A reentrant lock: the thread that holds it may enter again, and holds it until it has left as often
as it has entered.

* `Holding`, `LockStep`: the holder and how often it has entered again.
* `LockRun.balance`: in a run every thread has entered as often as it has left, except the holder.
* `LockRun.exclusive`: **at most one thread has entered more often than it has left.**
-/

namespace ReentrantLock

open Runs

variable {ι : Type*} [DecidableEq ι]

/-- What the threads do with the lock. -/
inductive LockUse (ι : Type*)
  | enter (i : ι)
  | leave (i : ι)
  deriving DecidableEq

/-- The thread that holds the lock, and how many times it has entered besides the first. -/
abbrev Holding (ι : Type*) := Option (ι × ℕ)

inductive LockStep : Holding ι → LockUse ι → Holding ι → Prop
  | acquire (i : ι) : LockStep none (.enter i) (some (i, 0))
  | enter (i : ι) (n : ℕ) : LockStep (some (i, n)) (.enter i) (some (i, n + 1))
  | leave (i : ι) (n : ℕ) : LockStep (some (i, n + 1)) (.leave i) (some (i, n))
  | release (i : ι) : LockStep (some (i, 0)) (.leave i) none

/-- How often a thread has to leave. -/
def held (a : Holding ι) (i : ι) : ℕ :=
  match a with
  | none => 0
  | some (j, n) => if i = j then n + 1 else 0

/-- The runs of the lock, which is free at first. -/
abbrev LockRun (l : List (Holding ι × LockUse ι × Holding ι)) (a : Holding ι) : Prop :=
  Run (fun a => a = none) LockStep l a

variable {l : List (Holding ι × LockUse ι × Holding ι)} {a a' : Holding ι} {u : LockUse ι}

/-- One step. -/
lemma LockStep.held (h : LockStep a u a') (i : ι) :
    (if u = .leave i then 1 else 0) + held a' i = (if u = .enter i then 1 else 0) + held a i := by
  have hne : ∀ {j : ι}, j ≠ i → i ≠ j := Ne.symm
  cases h with
  | acquire j => by_cases hij : j = i <;> simp [ReentrantLock.held, hij, hne]
  | enter j n =>
      by_cases hij : j = i
      · simp [ReentrantLock.held, hij, Nat.add_comm 1]
      · simp [ReentrantLock.held, hij, hne hij]
  | leave j n =>
      by_cases hij : j = i
      · simp [ReentrantLock.held, hij, Nat.add_comm 1]
      · simp [ReentrantLock.held, hij, hne hij]
  | release j => by_cases hij : j = i <;> simp [ReentrantLock.held, hij, hne]

/-- Every thread has left as often as it has entered, except the holder. -/
lemma LockRun.balance (h : LockRun l a) (i : ι) :
    (labels l).count (.leave i) + held a i = (labels l).count (.enter i) := by
  induction h with
  | start h =>
      rw [h]
      rfl
  | step _ hs ih =>
      have hstep := hs.held i
      simp only [labels, List.map_append, List.map_cons, List.map_nil, List.count_append,
        List.count_singleton, beq_iff_eq] at ih ⊢
      omega

/-- **Mutual exclusion.** -/
theorem LockRun.exclusive (h : LockRun l a) {i j : ι}
    (hi : (labels l).count (.leave i) < (labels l).count (.enter i))
    (hj : (labels l).count (.leave j) < (labels l).count (.enter j)) : i = j := by
  have hheld := h.balance i
  have hheld' := h.balance j
  cases a with
  | none =>
      simp only [held] at hheld
      omega
  | some p =>
      simp only [held] at hheld hheld'
      split at hheld
      · split at hheld'
        · simp_all
        · omega
      · omega

end ReentrantLock

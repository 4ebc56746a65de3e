import Mathlib.Data.BitVec
import Mathlib.Logic.Function.Basic
import Mathlib.Tactic.Common

/-!
Memory of 32-bit words and the blocks of consecutive words that are stored in it.

* `offset a x`: how far the address `x` is above `a`, modulo the size of the address space; the
  words of a block of `n` words at `a` are those at offsets below `4 * n`.
* `storeWords`, `loadWords`: a block is written or read word by word.  `loadWords_storeWords` reads
  back what was written, `storeWords_of_le` leaves the rest alone, `loadWords_congr` compares two
  memories.
* `pushWords`: words pushed one by one; `pushWords_eq` makes them a block.
-/

namespace Blocks

abbrev Word := BitVec 32

/-- The words of the memory, by address; the addresses in use are multiples of four. -/
abbrev Mem := Word → Word

variable {m m' : Mem} {a b x : Word} {ws vs : List Word} {n k : ℕ}

/-! ### Offsets -/

/-- How far `x` is above `a`. -/
def offset (a x : Word) : ℕ := (x - a).toNat

lemma offset_lt : offset a x < 2 ^ 32 := (x - a).isLt

@[simp] lemma offset_self : offset a a = 0 := by simp [offset]

/-- The offset of a word of a block. -/
lemma offset_add (h : n < 2 ^ 32) : offset a (a + BitVec.ofNat 32 n) = n := by
  unfold offset
  bv_omega

lemma offset_sub (h : n ≤ offset b a) : offset b (a - BitVec.ofNat 32 n) = offset b a - n := by
  unfold offset at *
  bv_omega

/-- An offset seen from further up. -/
lemma offset_of_le (h : offset b a ≤ offset b x) : offset a x = offset b x - offset b a := by
  unfold offset at *
  bv_omega

/-- The way up from `b` to `x` leads over `a`. -/
lemma offset_of_add (h : offset b a + offset a x < 2 ^ 32) :
    offset b x = offset b a + offset a x := by
  unfold offset at *
  bv_omega

/-! ### Writing and reading a block -/

/-- Store the words at consecutive addresses from `a`. -/
def storeWords (m : Mem) (a : Word) : List Word → Mem
  | [] => m
  | w :: ws => storeWords (Function.update m a w) (a + 4) ws

/-- Load `n` words from consecutive addresses from `a`. -/
def loadWords (m : Mem) (a : Word) : ℕ → List Word
  | 0 => []
  | n + 1 => m a :: loadWords m (a + 4) n

@[simp] lemma storeWords_nil : storeWords m a [] = m := rfl

@[simp] lemma loadWords_zero : loadWords m a 0 = [] := rfl

@[simp] lemma length_loadWords : (loadWords m a n).length = n := by
  induction n generalizing a with
  | zero => rfl
  | succ n ih => simp [loadWords, ih]

lemma offset_next (h : 4 ≤ offset a x) : offset (a + 4) x = offset a x - 4 := by
  unfold offset at *
  bv_omega

/-- Nothing outside the block is written. -/
lemma storeWords_of_le (h : 4 * ws.length ≤ offset a x) : storeWords m a ws x = m x := by
  induction ws generalizing m a with
  | nil => rfl
  | cons w ws ih =>
      rw [List.length_cons] at h
      have hne : x ≠ a := by
        rintro rfl
        rw [offset_self] at h
        omega
      have hnext : offset (a + 4) x = offset a x - 4 := offset_next (by omega)
      rw [storeWords, ih (by omega), Function.update_of_ne hne]

/-- What is read depends on the block only. -/
lemma loadWords_congr (hn : 4 * n ≤ 2 ^ 32) (h : ∀ x, offset a x < 4 * n → m x = m' x) :
    loadWords m a n = loadWords m' a n := by
  induction n generalizing a with
  | zero => rfl
  | succ n ih =>
      have hhead : m a = m' a := h a (by simp)
      rw [loadWords, loadWords, hhead, ih (by omega)]
      intro x hx
      refine h x ?_
      unfold offset at *
      bv_omega

/-- A block is read back as it was written. -/
lemma loadWords_storeWords (hn : ws.length = n) (h : 4 * n ≤ 2 ^ 32) :
    loadWords (storeWords m a ws) a n = ws := by
  induction ws generalizing m a n with
  | nil =>
      subst hn
      rfl
  | cons w ws ih =>
      subst hn
      rw [List.length_cons] at h
      have hfirst : storeWords (Function.update m a w) (a + 4) ws a = w := by
        rw [storeWords_of_le, Function.update_self]
        have hoff : offset (a + 4) a = 2 ^ 32 - 4 := by
          unfold offset
          bv_omega
        omega
      rw [List.length_cons, loadWords, storeWords, hfirst, ih rfl (by omega)]

/-- A block is read in two parts. -/
lemma loadWords_add : loadWords m a (n + k) =
    loadWords m a n ++ loadWords m (a + BitVec.ofNat 32 (4 * n)) k := by
  induction n generalizing a with
  | zero => simp
  | succ n ih =>
      have hnext : a + 4 + BitVec.ofNat 32 (4 * n) = a + BitVec.ofNat 32 (4 * (n + 1)) := by
        bv_omega
      rw [Nat.add_right_comm, loadWords, loadWords, ih, hnext, List.cons_append]

/-! ### Single words -/

/-- A word outside the block may be written before or after it. -/
lemma storeWords_update (h : 4 * ws.length ≤ offset a x) (w : Word) :
    storeWords (Function.update m x w) a ws = Function.update (storeWords m a ws) x w := by
  induction ws generalizing m a with
  | nil => rfl
  | cons v ws ih =>
      rw [List.length_cons] at h
      have hne : a ≠ x := by
        rintro rfl
        rw [offset_self] at h
        omega
      have hnext : offset (a + 4) x = offset a x - 4 := offset_next (by omega)
      rw [storeWords, storeWords, Function.update_comm hne.symm, ih (by omega)]

/-- A word of the block is written again. -/
lemma update_storeWords (h : 4 * ws.length ≤ 2 ^ 32) (hn : n < ws.length) (w : Word) :
    Function.update (storeWords m a ws) (a + BitVec.ofNat 32 (4 * n)) w =
      storeWords m a (ws.set n w) := by
  induction ws generalizing m a n with
  | nil => cases hn
  | cons v ws ih =>
      rw [List.length_cons] at h hn
      cases n with
      | zero =>
          have hoff : offset (a + 4) a = 2 ^ 32 - 4 := by
            unfold offset
            bv_omega
          have hzero : a + BitVec.ofNat 32 (4 * 0) = a := by simp
          rw [hzero, List.set_cons_zero, storeWords, storeWords, ← storeWords_update (by omega),
            Function.update_idem]
      | succ n =>
          have hnext : a + BitVec.ofNat 32 (4 * (n + 1)) = a + 4 + BitVec.ofNat 32 (4 * n) := by
            bv_omega
          rw [hnext, List.set_cons_succ, storeWords, ih (by omega) (by omega), storeWords]

/-- The last word of a block. -/
lemma storeWords_concat (w : Word) : storeWords m a (ws ++ [w]) =
    Function.update (storeWords m a ws) (a + BitVec.ofNat 32 (4 * ws.length)) w := by
  induction ws generalizing m a with
  | nil => simp [storeWords]
  | cons v ws ih =>
      have hnext : a + 4 + BitVec.ofNat 32 (4 * ws.length) =
          a + BitVec.ofNat 32 (4 * (ws.length + 1)) := by
        bv_omega
      rw [List.cons_append, storeWords, ih, storeWords, List.length_cons, hnext]

/-- Push words onto a stack that grows down, the first of them first. -/
def pushWords (m : Mem) (sp : Word) : List Word → Mem × Word
  | [] => (m, sp)
  | w :: ws => pushWords (Function.update m (sp - 4) w) (sp - 4) ws

lemma pushWords_append : pushWords m a (ws ++ vs) =
    pushWords (pushWords m a ws).1 (pushWords m a ws).2 vs := by
  induction ws generalizing m a with
  | nil => rfl
  | cons w ws ih => rw [List.cons_append, pushWords, ih, pushWords]

/-- The pushed words are a block, the last of them at its start. -/
lemma pushWords_eq (h : 4 * ws.length ≤ 2 ^ 32) :
    pushWords m a ws = (storeWords m (a - BitVec.ofNat 32 (4 * ws.length)) ws.reverse,
      a - BitVec.ofNat 32 (4 * ws.length)) := by
  induction ws generalizing m a with
  | nil => simp [pushWords]
  | cons w ws ih =>
      rw [List.length_cons] at h
      have hlast : a - BitVec.ofNat 32 (4 * (ws.length + 1)) + BitVec.ofNat 32 (4 * ws.length) =
          a - 4 := by
        bv_omega
      have hoff : offset (a - BitVec.ofNat 32 (4 * (ws.length + 1))) (a - 4) = 4 * ws.length := by
        unfold offset
        bv_omega
      have hsp : a - 4 - BitVec.ofNat 32 (4 * ws.length) =
          a - BitVec.ofNat 32 (4 * (ws.length + 1)) := by
        bv_omega
      have hout : 4 * ws.reverse.length ≤
          offset (a - BitVec.ofNat 32 (4 * (ws.length + 1))) (a - 4) := by
        rw [List.length_reverse]
        exact Nat.le_of_eq hoff.symm
      rw [pushWords, ih (by omega), hsp, List.length_cons, List.reverse_cons, storeWords_concat,
        List.length_reverse, hlast, storeWords_update hout]

end Blocks

import Rtsched.Kernel.State
import Mathlib.Data.List.Basic

/-!
The ring of a message queue of `src/message.rs`.

* `Ring.pushBack` and `Ring.popFront` are the storage parts of `try_send` and `try_receive`, with
  every index computation checked.  A slot is read at most once: reading takes the message out.
* `Ring.Holds r l`: the ring holds the messages `l`, oldest first.
* `Ring.pushBack_full`, `Ring.pushBack_spec`, `Ring.popFront_empty`, `Ring.popFront_spec`:
  **the ring is a bounded queue**.
-/

namespace Rtsched

/-- The capacity of a message queue, a positive `usize`. -/
structure Capacity where
  n : ℕ
  usizeMax : ℕ
  pos : 1 ≤ n
  le : n ≤ usizeMax

/-- `usize` addition. -/
def checkedAdd (usizeMax a b : ℕ) : Except Fault ℕ :=
  if a + b ≤ usizeMax then .ok (a + b) else .error .badIndex

/-- `usize` subtraction. -/
def checkedSub (a b : ℕ) : Except Fault ℕ := if b ≤ a then .ok (a - b) else .error .badIndex

/-- The storage of a `QueueState`; a slot without a message is uninitialized. -/
structure Ring (α : Type) where
  cap : Capacity
  slots : ℕ → Option α
  head : ℕ
  len : ℕ

namespace Ring

variable {α : Type} {r : Ring α} {l : List α} {x : α}

/-- `MessageQueue::new`. -/
def new (cap : Capacity) : Ring α := ⟨cap, fun _ => none, 0, 0⟩

/-- Write a slot. -/
def write (r : Ring α) (i : ℕ) (x : α) : Except Fault (Ring α) :=
  if i < r.cap.n then .ok { r with slots := Function.update r.slots i (some x) }
  else .error .badIndex

/-- Read a slot that holds a message. -/
def read (r : Ring α) (i : ℕ) : Except Fault (α × Ring α) :=
  if i < r.cap.n then
    match r.slots i with
    | some x => .ok (x, { r with slots := Function.update r.slots i none })
    | none => .error .uninitialized
  else .error .badIndex

/-- The storage part of `try_send`; `none` stands for `Full`. -/
def pushBack (r : Ring α) (x : α) : Except Fault (Option (Ring α)) :=
  if r.len = r.cap.n then .ok none
  else do
    let untilEnd ← checkedSub r.cap.n r.head
    let tail ← (if r.len < untilEnd then checkedAdd r.cap.usizeMax r.head r.len
      else checkedSub r.len untilEnd)
    let r ← r.write tail x
    let len ← checkedAdd r.cap.usizeMax r.len 1
    .ok (some { r with len := len })

/-- The storage part of `try_receive`; `none` stands for `Empty`. -/
def popFront (r : Ring α) : Except Fault (Option (α × Ring α)) :=
  if r.len = 0 then .ok none
  else do
    let (x, r) ← r.read r.head
    let last ← checkedSub r.cap.n 1
    let head ← (if r.head = last then .ok 0 else checkedAdd r.cap.usizeMax r.head 1)
    let len ← checkedSub r.len 1
    .ok (some (x, { r with head := head, len := len }))

/-- The slot `i` places after the head. -/
def slot (r : Ring α) (i : ℕ) : ℕ :=
  if r.head + i < r.cap.n then r.head + i else r.head + i - r.cap.n

/-- The ring holds the messages `l`, oldest first. -/
structure Holds (r : Ring α) (l : List α) : Prop where
  head_lt : r.head < r.cap.n
  len_eq : r.len = l.length
  len_le : l.length ≤ r.cap.n
  slots_eq : ∀ i < l.length, r.slots (r.slot i) = l[i]?

lemma holds_new (cap : Capacity) : (new cap : Ring α).Holds [] where
  head_lt := cap.pos
  len_eq := rfl
  len_le := Nat.zero_le _
  slots_eq := by simp

/-- The messages of a ring are determined. -/
lemma Holds.unique {l' : List α} (h : r.Holds l) (h' : r.Holds l') : l = l' := by
  have hlen : l.length = l'.length := h.len_eq.symm.trans h'.len_eq
  refine List.ext_getElem? fun i => ?_
  by_cases hi : i < l.length
  · rw [← h.slots_eq i hi, ← h'.slots_eq i (hlen ▸ hi)]
  · rw [List.getElem?_eq_none (by omega), List.getElem?_eq_none (by omega)]

/-- A full queue rejects the message. -/
lemma pushBack_full (h : r.Holds l) (hl : l.length = r.cap.n) : r.pushBack x = .ok none := by
  rw [pushBack, if_pos (h.len_eq.trans hl)]

/-- A queue that is not full appends the message. -/
theorem pushBack_spec (h : r.Holds l) (hl : l.length ≠ r.cap.n) (x : α) :
    ∃ r', r.pushBack x = .ok (some r') ∧ r'.Holds (l ++ [x]) ∧ r'.cap = r.cap := by
  have hhead := h.head_lt
  have hlen := h.len_eq
  have hle := h.len_le
  have hmax := r.cap.le
  -- the tail is the slot after the last message
  have htail : (if r.len < r.cap.n - r.head then checkedAdd r.cap.usizeMax r.head r.len
      else checkedSub r.len (r.cap.n - r.head)) = .ok (r.slot l.length) := by
    unfold checkedAdd checkedSub slot
    split
    · rw [if_pos (by omega), if_pos (by omega), hlen]
    · rw [if_pos (by omega), if_neg (by omega)]
      congr 1
      omega
  have hbound : r.slot l.length < r.cap.n := by
    unfold slot
    split <;> omega
  refine ⟨{ r with slots := Function.update r.slots (r.slot l.length) (some x),
                   len := r.len + 1 }, ?_, ?_, rfl⟩
  · have hsub : checkedSub r.cap.n r.head = .ok (r.cap.n - r.head) := if_pos hhead.le
    have hadd : checkedAdd r.cap.usizeMax r.len 1 = .ok (r.len + 1) := if_pos (by omega)
    rw [pushBack, if_neg (by omega), hsub, Outcome.ok_bind, htail, Outcome.ok_bind, write,
      if_pos hbound, Outcome.ok_bind, hadd, Outcome.ok_bind]
  · refine ⟨hhead, by simp [hlen], by simp; omega, fun i hi => ?_⟩
    have hslot : ∀ j, slot { r with slots := Function.update r.slots (r.slot l.length) (some x),
                                    len := r.len + 1 } j = r.slot j := fun _ => rfl
    rw [hslot]
    rcases Nat.lt_succ_iff_lt_or_eq.mp (by simpa using hi : i < l.length + 1) with hi | rfl
    · have hne : r.slot i ≠ r.slot l.length := by
        unfold slot
        split <;> split <;> omega
      rw [List.getElem?_append_left hi]
      simpa [Function.update_of_ne hne] using h.slots_eq i hi
    · simp

/-- An empty queue has nothing to give. -/
lemma popFront_empty (h : r.Holds []) : r.popFront = .ok none := by
  rw [popFront, if_pos (by simpa using h.len_eq)]

/-- A queue that is not empty gives its oldest message. -/
theorem popFront_spec (h : r.Holds (x :: l)) :
    ∃ r', r.popFront = .ok (some (x, r')) ∧ r'.Holds l ∧ r'.cap = r.cap := by
  have hhead := h.head_lt
  have hlen : r.len = l.length + 1 := h.len_eq
  have hle : l.length + 1 ≤ r.cap.n := h.len_le
  have hmax := r.cap.le
  have hfirst : r.slots r.head = some x := by
    have h0 := h.slots_eq 0 (by simp)
    rwa [slot, if_pos (by omega)] at h0
  refine ⟨{ r with slots := Function.update r.slots r.head none,
                   head := r.slot 1, len := l.length }, ?_, ?_, rfl⟩
  · have hread : r.read r.head =
        .ok (x, { r with slots := Function.update r.slots r.head none }) := by
      rw [read, if_pos hhead, hfirst]
    have hlast : checkedSub r.cap.n 1 = .ok (r.cap.n - 1) := if_pos r.cap.pos
    have hnext : (if r.head = r.cap.n - 1 then .ok 0
        else checkedAdd r.cap.usizeMax r.head 1) = .ok (r.slot 1) := by
      unfold checkedAdd slot
      split
      · rw [if_neg (by omega)]
        congr 1
        omega
      · rw [if_pos (by omega), if_pos (by omega)]
    have hsub : checkedSub r.len 1 = .ok l.length := by
      rw [checkedSub, if_pos (by omega), hlen]
      rfl
    rw [popFront, if_neg (by omega), hread, Outcome.ok_bind]
    simp only [hlast, hnext, hsub, Outcome.ok_bind]
  · refine ⟨?_, rfl, by simp; omega, fun i hi => ?_⟩
    · simp only [slot]
      split <;> omega
    · have hslot : slot { r with slots := Function.update r.slots r.head none,
                                 head := r.slot 1, len := l.length } i = r.slot (i + 1) := by
        simp only [slot]
        split <;> split <;> split <;> omega
      have hne : r.slot (i + 1) ≠ r.head := by
        unfold slot
        split <;> omega
      rw [hslot]
      simpa [Function.update_of_ne hne] using h.slots_eq (i + 1) (by simpa using hi)

end Ring

end Rtsched

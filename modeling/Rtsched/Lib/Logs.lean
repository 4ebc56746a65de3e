import Mathlib.Data.List.Induction
import Mathlib.Tactic.Common

/-!
Logs of events, and what was recorded in a log since it was last reset.

* `since resets value l`: the values of the events after the last event that resets.
* `Largest`, `Least`: a register that keeps the largest or the least value of a log, and 0 if there
  is none.
-/

namespace Logs

variable {ε α : Type*} {resets : ε → Bool} {value : ε → Option α} {l : List ε} {e : ε} {a : α}

/-- The values in the log after its last reset, in their order. -/
def since (resets : ε → Bool) (value : ε → Option α) (l : List ε) : List α :=
  l.foldl (fun acc e => if resets e then [] else acc ++ (value e).toList) []

@[simp] lemma since_nil : since resets value [] = [] := rfl

lemma since_concat : since resets value (l ++ [e]) =
    if resets e then [] else since resets value l ++ (value e).toList := by
  rw [since, List.foldl_append]
  rfl

lemma since_concat_reset (he : resets e) : since resets value (l ++ [e]) = [] := by
  rw [since_concat, if_pos he]

lemma since_concat_some (he : resets e = false) (hv : value e = some a) :
    since resets value (l ++ [e]) = since resets value l ++ [a] := by
  rw [since_concat, he, hv]
  rfl

lemma since_concat_none (he : resets e = false) (hv : value e = none) :
    since resets value (l ++ [e]) = since resets value l := by
  rw [since_concat, he, hv]
  exact List.append_nil _

lemma exists_of_mem_since (h : a ∈ since resets value l) :
    ∃ e ∈ l, resets e = false ∧ value e = some a := by
  induction l using List.reverseRecOn with
  | nil => cases h
  | append_singleton l e ih =>
      rw [since_concat] at h
      split at h
      · cases h
      · rename_i he
        rcases List.mem_append.mp h with h | h
        · obtain ⟨e', he', hreset, hval⟩ := ih h
          exact ⟨e', List.mem_append_left _ he', hreset, hval⟩
        · refine ⟨e, by simp, by simpa using he, ?_⟩
          simpa using h

/-! ### Registers -/

/-- A register that keeps the last value. -/
@[simp] def keepLast [Zero α] (resets : ε → Bool) (value : ε → Option α) (e : ε) (x : α) : α :=
  if resets e then 0 else (value e).getD x

/-- A register that keeps the largest value. -/
@[simp] def keepLargest [Zero α] [LT α] [DecidableLT α] (resets : ε → Bool)
    (value : ε → Option α) (e : ε) (x : α) : α :=
  if resets e then 0
  else
    match value e with
    | some a => if x < a then a else x
    | none => x

/-- A register that keeps the least value; it takes 0 for no value. -/
@[simp] def keepLeast [Zero α] [DecidableEq α] [LT α] [DecidableLT α] (resets : ε → Bool)
    (value : ε → Option α) (e : ε) (x : α) : α :=
  if resets e then 0
  else
    match value e with
    | some a => if x = 0 ∨ a < x then a else x
    | none => x

lemma keepLast_since [Zero α] (resets : ε → Bool) (value : ε → Option α) (e : ε) (l : List ε) :
    keepLast resets value e ((since resets value l).getLastD 0) =
      (since resets value (l ++ [e])).getLastD 0 := by
  rw [keepLast]
  cases he : resets e with
  | true => rw [since_concat_reset he, if_pos rfl, List.getLastD_nil]
  | false =>
      cases hv : value e with
      | none => rw [since_concat_none he hv, if_neg Bool.false_ne_true, Option.getD_none]
      | some a =>
          rw [since_concat_some he hv, if_neg Bool.false_ne_true, Option.getD_some,
            List.getLastD_concat]

/-! ### The largest and the least value -/

section Extrema

variable {α : Type*} [LE α] [LT α] [Std.IsLinearOrder α] [Std.LawfulOrderLT α] [Zero α]
  {x a : α} {l : List α}

/-- `x` is the largest value of `l`, or 0 if there is none. -/
def Largest (x : α) (l : List α) : Prop := (l = [] ∧ x = 0) ∨ (x ∈ l ∧ ∀ y ∈ l, y ≤ x)

/-- `x` is the least value of `l`, or 0 if there is none. -/
def Least (x : α) (l : List α) : Prop := (l = [] ∧ x = 0) ∨ (x ∈ l ∧ ∀ y ∈ l, x ≤ y)

omit [LT α] [Std.IsLinearOrder α] [Std.LawfulOrderLT α] in
lemma largest_nil : Largest (0 : α) [] := .inl ⟨rfl, rfl⟩

omit [LT α] [Std.IsLinearOrder α] [Std.LawfulOrderLT α] in
lemma least_nil : Least (0 : α) [] := .inl ⟨rfl, rfl⟩

/-- A register that takes every larger value keeps the largest. -/
lemma Largest.concat [DecidableLT α] (hzero : ∀ y : α, 0 ≤ y) (h : Largest x l) :
    Largest (if x < a then a else x) (l ++ [a]) := by
  refine .inr ?_
  rcases h with ⟨rfl, rfl⟩ | ⟨hx, hmax⟩
  · split
    · exact ⟨by simp, by simp [Std.le_refl]⟩
    · rename_i hlt
      have ha : a = 0 := Std.le_antisymm (Std.not_lt.mp hlt) (hzero a)
      exact ⟨by simp [ha], by simp [ha, Std.le_refl]⟩
  · split
    · rename_i hlt
      refine ⟨by simp, fun y hy => ?_⟩
      rcases List.mem_append.mp hy with hy | hy
      · exact Std.le_trans (hmax y hy) (Std.le_of_lt hlt)
      · exact List.mem_singleton.mp hy ▸ Std.le_refl a
    · rename_i hlt
      refine ⟨List.mem_append_left _ hx, fun y hy => ?_⟩
      rcases List.mem_append.mp hy with hy | hy
      · exact hmax y hy
      · exact List.mem_singleton.mp hy ▸ Std.not_lt.mp hlt

/-- A register that takes every smaller value, and the first one, keeps the least; it cannot tell a
value 0 from none. -/
lemma Least.concat [DecidableLT α] [DecidableEq α] (hl : (0 : α) ∉ l) (h : Least x l) :
    Least (if x = 0 ∨ a < x then a else x) (l ++ [a]) := by
  refine .inr ?_
  rcases h with ⟨rfl, rfl⟩ | ⟨hx, hmin⟩
  · rw [if_pos (.inl rfl)]
    exact ⟨by simp, by simp [Std.le_refl]⟩
  · have hne : x ≠ 0 := fun h => hl (h ▸ hx)
    split
    · rename_i hlt
      have hlt : a < x := hlt.resolve_left hne
      refine ⟨by simp, fun y hy => ?_⟩
      rcases List.mem_append.mp hy with hy | hy
      · exact Std.le_trans (Std.le_of_lt hlt) (hmin y hy)
      · exact List.mem_singleton.mp hy ▸ Std.le_refl a
    · rename_i hlt
      have hle : x ≤ a := Std.not_lt.mp fun h => hlt (.inr h)
      refine ⟨List.mem_append_left _ hx, fun y hy => ?_⟩
      rcases List.mem_append.mp hy with hy | hy
      · exact hmin y hy
      · exact List.mem_singleton.mp hy ▸ hle

omit [LT α] [Std.IsLinearOrder α] [Std.LawfulOrderLT α] [LE α] in
lemma zero_notMem_since {ε : Type*} {resets : ε → Bool} {value : ε → Option α} {l : List ε}
    (hzero : ∀ e, value e = some 0 → resets e) : 0 ∉ since resets value l := by
  intro h
  obtain ⟨e, -, he, hv⟩ := exists_of_mem_since h
  rw [hzero e hv] at he
  cases he

lemma Largest.keep {ε : Type*} {resets : ε → Bool} {value : ε → Option α} {l : List ε}
    [DecidableLT α] (hzero : ∀ y : α, 0 ≤ y) (e : ε) (h : Largest x (since resets value l)) :
    Largest (keepLargest resets value e x) (since resets value (l ++ [e])) := by
  rw [keepLargest]
  cases he : resets e with
  | true => rw [since_concat_reset he, if_pos rfl]; exact largest_nil
  | false =>
      rw [if_neg Bool.false_ne_true]
      cases hv : value e with
      | none => rwa [since_concat_none he hv]
      | some a => rw [since_concat_some he hv]; exact h.concat hzero

lemma Least.keep {ε : Type*} {resets : ε → Bool} {value : ε → Option α} {l : List ε}
    [DecidableLT α] [DecidableEq α] (hzero : ∀ e, value e = some 0 → resets e) (e : ε)
    (h : Least x (since resets value l)) :
    Least (keepLeast resets value e x) (since resets value (l ++ [e])) := by
  rw [keepLeast]
  cases he : resets e with
  | true => rw [since_concat_reset he, if_pos rfl]; exact least_nil
  | false =>
      rw [if_neg Bool.false_ne_true]
      cases hv : value e with
      | none => rwa [since_concat_none he hv]
      | some a => rw [since_concat_some he hv]; exact h.concat (zero_notMem_since hzero)

end Extrema

end Logs

import Mathlib.Tactic.Common

/-!
Loops that follow a cursor until it is null.

* `visit next fuel p`: the places that such a loop visits from the cursor `p`; none if a step fails
  or the loop has not ended after `fuel` turns.
* `Leads next p l p'`: from `p` the cursor passes the places of `l` and arrives at `p'`.
* `visit_of_leads`: a loop whose cursor arrives at null visits just these places.
* `visit_cycle`: **a loop whose cursor comes back to a place never ends.**
-/

namespace Cursor

variable {α : Type*} {next : α → Option (Option α)} {p p' : Option α} {l l' r : List α} {a : α}
  {n fuel : ℕ}

/-- The places that the loop visits. -/
def visit (next : α → Option (Option α)) : ℕ → Option α → Option (List α)
  | _, none => some []
  | 0, some _ => none
  | n + 1, some a => do
      let p ← next a
      let visited ← visit next n p
      some (a :: visited)

/-- The cursor passes the places of a list. -/
def Leads (next : α → Option (Option α)) : Option α → List α → Option α → Prop
  | p, [], p' => p = p'
  | p, a :: l, p' => p = some a ∧ ∃ q, next a = some q ∧ Leads next q l p'

lemma Leads.nil : Leads next p [] p := rfl

lemma Leads.cons (hnext : next a = some p) (h : Leads next p l p') :
    Leads next (some a) (a :: l) p' := ⟨rfl, p, hnext, h⟩

/-- The loop passes the places and goes on. -/
lemma visit_append (h : Leads next p l p') :
    visit next (l.length + n) p = (visit next n p').map (l ++ ·) := by
  induction l generalizing p with
  | nil =>
      rw [h, List.length_nil, Nat.zero_add]
      exact (congrFun Option.map_id _).symm
  | cons a l ih =>
      obtain ⟨rfl, q, hq, hrest⟩ := h
      rw [List.length_cons, Nat.add_right_comm, visit, hq]
      simp only [Option.bind_eq_bind, Option.bind_some, ih hrest]
      cases visit next n p' <;> rfl

/-- A loop that has ended ends with more turns in the same way. -/
lemma visit_add (h : visit next n p = some r) (k : ℕ) : visit next (n + k) p = some r := by
  induction n generalizing p r with
  | zero =>
      cases p with
      | none => cases k <;> exact h
      | some a => cases h
  | succ n ih =>
      cases p with
      | none => cases k <;> exact h
      | some a =>
          simp only [visit, Option.bind_eq_bind, Option.bind_eq_some_iff, Option.some.injEq] at h
          obtain ⟨q, hq, visited, hvisited, rfl⟩ := h
          simp only [Nat.add_right_comm n 1 k, visit, hq, Option.bind_eq_bind, Option.bind_some,
            ih hvisited]

/-- What a loop has visited when it ends does not depend on the bound of its turns. -/
lemma visit_unique {m : ℕ} {r' : List α} (h : visit next n p = some r)
    (h' : visit next m p = some r') : r = r' := by
  have hn := visit_add h m
  have hm := visit_add h' n
  rw [Nat.add_comm, hm] at hn
  exact (Option.some.inj hn).symm

/-- A loop whose cursor arrives at null. -/
theorem visit_of_leads (h : Leads next p l none) (hfuel : l.length ≤ fuel) :
    visit next fuel p = some l := by
  obtain ⟨n, rfl⟩ := Nat.exists_eq_add_of_le hfuel
  have hend : visit next n none = some [] := by cases n <;> rfl
  rw [visit_append h, hend, Option.map_some, List.append_nil]

/-- **A loop whose cursor comes back to a place never ends.** -/
theorem visit_cycle (hl : l ≠ []) (h : Leads next (some a) l (some a)) :
    visit next fuel (some a) = none := by
  cases hvisit : visit next fuel (some a) with
  | none => rfl
  | some r =>
      -- one more turn around would not change what it has visited
      have hmore := visit_add hvisit l.length
      rw [Nat.add_comm, visit_append h, hvisit, Option.map_some, Option.some.injEq] at hmore
      exact absurd (List.append_left_eq_self.mp hmore) hl

/-- The loop never ends either from a place that leads to the cycle. -/
lemma visit_of_leads_cycle (hl : l ≠ []) (h : Leads next p l' (some a))
    (hcycle : Leads next (some a) l (some a)) : visit next fuel p = none := by
  cases hvisit : visit next fuel p with
  | none => rfl
  | some r =>
      have hmore := visit_add hvisit l'.length
      rw [Nat.add_comm, visit_append h, visit_cycle hl hcycle] at hmore
      cases hmore

end Cursor

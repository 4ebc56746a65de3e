import Mathlib.Data.List.Basic
import Mathlib.Data.List.Nodup

/-!
Intrusive doubly linked lists: elements that point to the one before and the one after them, with a
pointer to each end.

* `Chain prev next p l q`: the elements of `l` are linked in this order, between `p` and `q`;
  `chain_append` splits it, `Chain.redirectNext` and `Chain.redirectPrev` change what is around it.
* `Listed`: a whole list with its two ends.  `Listed.append` and `Listed.remove` are the rules for
  adding an element at the end and for taking one out anywhere.
-/

namespace Chained

variable {α : Type*} {prev next prev' next' : α → Option α} {p q r : Option α} {l l₁ l₂ : List α}
  {a : α}

/-- The elements of `l` are linked in this order; `p` comes before the first and `q` after the
last. -/
def Chain (prev next : α → Option α) : Option α → List α → Option α → Prop
  | _, [], _ => True
  | p, a :: l, q => prev a = p ∧ next a = l.head?.or q ∧ Chain prev next (some a) l q

@[simp] lemma chain_nil : Chain prev next p [] q := trivial

lemma chain_cons : Chain prev next p (a :: l) q ↔
    prev a = p ∧ next a = l.head?.or q ∧ Chain prev next (some a) l q := Iff.rfl

/-- Two parts of a chain. -/
lemma chain_append : Chain prev next p (l₁ ++ l₂) q ↔
    Chain prev next p l₁ (l₂.head?.or q) ∧ Chain prev next (l₁.getLast?.or p) l₂ q := by
  induction l₁ generalizing p with
  | nil => simp
  | cons a l₁ ih =>
      have hlast : ((a :: l₁).getLast?).or p = l₁.getLast?.or (some a) := by
        rw [List.getLast?_cons]
        cases l₁.getLast? <;> rfl
      rw [List.cons_append, chain_cons, chain_cons, ih, hlast, List.head?_append, Option.or_assoc]
      tauto

namespace Chain

/-- A chain depends on the links of its elements only. -/
lemma congr (h : Chain prev next p l q) (hprev : ∀ a ∈ l, prev' a = prev a)
    (hnext : ∀ a ∈ l, next' a = next a) : Chain prev' next' p l q := by
  induction l generalizing p with
  | nil => trivial
  | cons a l ih =>
      obtain ⟨ha, ha', hl⟩ := h
      refine ⟨?_, ?_, ih hl (fun b hb => ?_) fun b hb => ?_⟩
      · rw [hprev a List.mem_cons_self, ha]
      · rw [hnext a List.mem_cons_self, ha']
      · exact hprev b (List.mem_cons_of_mem a hb)
      · exact hnext b (List.mem_cons_of_mem a hb)

/-- The last element is made to point to `r`. -/
lemma redirectNext (h : Chain prev next p l q) (hnodup : l.Nodup)
    (hprev : ∀ a ∈ l, prev' a = prev a)
    (hnext : ∀ a ∈ l, l.getLast? ≠ some a → next' a = next a)
    (hlast : ∀ a, l.getLast? = some a → next' a = r) : Chain prev' next' p l r := by
  rcases List.eq_nil_or_concat l with rfl | ⟨l, a, rfl⟩
  · trivial
  · rw [List.concat_eq_append] at *
    obtain ⟨hl, ha, -, -⟩ := chain_append.mp h
    have hne : ∀ b ∈ l, (l ++ [a]).getLast? ≠ some b := by
      rintro b hb heq
      obtain rfl : a = b := by simpa using heq
      exact (List.nodup_append.mp hnodup).2.2 a hb a (List.mem_singleton_self a) rfl
    refine chain_append.mpr ⟨hl.congr (fun b hb => ?_) fun b hb => ?_, ?_, ?_, trivial⟩
    · exact hprev b (List.mem_append_left _ hb)
    · exact hnext b (List.mem_append_left _ hb) (hne b hb)
    · rw [hprev a (by simp), ha]
    · exact hlast a (by simp)

/-- The first element is made to point back to `r`. -/
lemma redirectPrev (h : Chain prev next p l q) (hnodup : l.Nodup)
    (hnext : ∀ a ∈ l, next' a = next a)
    (hprev : ∀ a ∈ l, l.head? ≠ some a → prev' a = prev a)
    (hhead : ∀ a, l.head? = some a → prev' a = r) : Chain prev' next' r l q := by
  cases l with
  | nil => trivial
  | cons a l =>
      obtain ⟨-, ha, hl⟩ := h
      have hal : a ∉ l := (List.nodup_cons.mp hnodup).1
      refine ⟨hhead a rfl, ?_, hl.congr (fun b hb => ?_) fun b hb => ?_⟩
      · rw [hnext a List.mem_cons_self, ha]
      · refine hprev b (List.mem_cons_of_mem a hb) ?_
        rintro heq
        obtain rfl : a = b := Option.some.inj heq
        exact hal hb
      · exact hnext b (List.mem_cons_of_mem a hb)

end Chain

/-! ### Whole lists -/

/-- The pointers `head` and `tail` and the links of the elements describe the list `l`. -/
structure Listed (head tail : Option α) (prev next : α → Option α) (l : List α) : Prop where
  head : head = l.head?
  tail : tail = l.getLast?
  nodup : l.Nodup
  chain : Chain prev next none l none

namespace Listed

variable {head tail : Option α}

lemma nil : Listed none none prev next [] := ⟨rfl, rfl, List.nodup_nil, trivial⟩

/-- The links of an element are its neighbours. -/
lemma split (h : Listed head tail prev next (l₁ ++ a :: l₂)) :
    prev a = l₁.getLast? ∧ next a = l₂.head? := by
  obtain ⟨-, ha, ha', -⟩ := chain_append.mp h.chain
  exact ⟨by simpa using ha, by simpa using ha'⟩

/-- **Adding an element at the end.** -/
lemma append (h : Listed head tail prev next l) (prev' next' : α → Option α) (ha : a ∉ l)
    (hprev : ∀ b ∈ l, prev' b = prev b) (hself : prev' a = tail ∧ next' a = none)
    (hnext : ∀ b ∈ l, tail ≠ some b → next' b = next b)
    (hlast : ∀ b, tail = some b → next' b = some a) :
    Listed (head.or (some a)) (some a) prev' next' (l ++ [a]) := by
  obtain ⟨rfl, rfl, hnodup, hchain⟩ := h
  refine ⟨?_, ?_, ?_, chain_append.mpr ⟨?_, ?_, ?_, trivial⟩⟩
  · rw [List.head?_append, List.head?_cons]
  · simp
  · refine List.nodup_append.mpr ⟨hnodup, List.nodup_singleton a, fun b hb c hc hbc => ?_⟩
    obtain rfl := List.mem_singleton.mp hc
    exact ha (hbc ▸ hb)
  · exact hchain.redirectNext hnodup hprev hnext hlast
  · rw [hself.1, Option.or_none]
  · exact hself.2

/-- **Taking an element out.** -/
lemma remove (h : Listed head tail prev next (l₁ ++ a :: l₂)) (prev' next' : α → Option α)
    (hprev : ∀ b ∈ l₁ ++ l₂, next a ≠ some b → prev' b = prev b)
    (hnext : ∀ b ∈ l₁ ++ l₂, prev a ≠ some b → next' b = next b)
    (hafter : ∀ b, next a = some b → prev' b = prev a)
    (hbefore : ∀ b, prev a = some b → next' b = next a) :
    Listed (if prev a = none then next a else head) (if next a = none then prev a else tail)
      prev' next' (l₁ ++ l₂) := by
  obtain ⟨hprev_a, hnext_a⟩ := h.split
  obtain ⟨hhead, htail, hnodup, hchain⟩ := h
  obtain ⟨hchain₁, -, -, hchain₂⟩ := chain_append.mp hchain
  have hnodup' : (l₁ ++ l₂).Nodup := hnodup.sublist (by simp)
  obtain ⟨hnodup₁, hnodup₂, hdisj⟩ := List.nodup_append.mp hnodup'
  rw [hprev_a] at hnext hafter hbefore ⊢
  rw [hnext_a] at hprev hafter hbefore ⊢
  refine ⟨?_, ?_, hnodup', chain_append.mpr ⟨?_, ?_⟩⟩
  · cases l₁ with
    | nil => simp
    | cons b l₁ => simp [hhead]
  · cases l₂ with
    | nil => simp
    | cons b l₂ => simp [htail, List.getLast?_append, List.getLast?_cons_cons]
  · refine hchain₁.redirectNext hnodup₁ (fun b hb => ?_) (fun b hb hne => ?_) fun b hb => ?_
    · refine hprev b (List.mem_append_left _ hb) fun heq => ?_
      exact hdisj b hb b (List.mem_of_mem_head? heq) rfl
    · exact hnext b (List.mem_append_left _ hb) hne
    · rw [hbefore b hb, Option.or_none]
  · rw [Option.or_none]
    refine hchain₂.redirectPrev hnodup₂ (fun b hb => ?_) (fun b hb hne => ?_) fun b hb => ?_
    · refine hnext b (List.mem_append_right _ hb) fun heq => ?_
      exact hdisj b (List.mem_of_getLast? heq) b hb rfl
    · exact hprev b (List.mem_append_right _ hb) hne
    · exact hafter b hb

end Listed

end Chained

import Mathlib.Data.List.Sort
import Mathlib.Data.List.Nodup

/-!
Lists that are strictly increasing under a comparison function, the contents of an ordered
intrusive tree.

* `ordInsert` and `List.erase` keep a list increasing (`Increasing.ordInsert`,
  `Increasing.erase`).
* `Increasing.head_lt`: the head is the least element.
* `Increasing.find?_eq_some_iff`: a search finds the least match.
* `keyCmp`: the order by a key, ties broken by an injective address.
-/

namespace Ordered

variable {α κ : Type*} {cmp cmp' : α → α → Ordering} {l : List α} {a b x : α}

/-- Strictly increasing under `cmp`. -/
abbrev Increasing (cmp : α → α → Ordering) (l : List α) : Prop :=
  l.Pairwise fun x y => cmp x y = .lt

/-- The position of a new element in an increasing sequence. -/
abbrev ordInsert (cmp : α → α → Ordering) (e : α) (l : List α) : List α :=
  l.orderedInsert (fun x y => cmp x y = .lt) e

@[simp] lemma mem_ordInsert : a ∈ ordInsert cmp b l ↔ a = b ∨ a ∈ l :=
  List.mem_orderedInsert _

/-- The element goes between those below it and those above it. -/
lemma ordInsert_append {e : α} {l₁ l₂ : List α} (h₁ : ∀ x ∈ l₁, ¬ cmp e x = .lt)
    (h₂ : ∀ x ∈ l₂, cmp e x = .lt) : ordInsert cmp e (l₁ ++ l₂) = l₁ ++ e :: l₂ := by
  induction l₁ with
  | nil =>
      cases l₂ with
      | nil => rfl
      | cons b l₂ => simp [ordInsert, h₂ b (by simp)]
  | cons a l₁ ih =>
      have ha := h₁ a (by simp)
      have hrec := ih fun x hx => h₁ x (by simp [hx])
      simp only [ordInsert] at hrec
      simp only [ordInsert, List.cons_append, List.orderedInsert, ha, if_false, hrec]

lemma cmp_not_lt_self [Std.ReflCmp cmp] (a : α) : ¬ cmp a a = .lt := by
  have h : cmp a a = .eq := Std.ReflCmp.compare_self
  rw [h]
  decide

lemma cmp_lt_asymm [Std.TransCmp cmp] (h : cmp a b = .lt) : ¬ cmp b a = .lt := fun h' =>
  cmp_not_lt_self a (Std.TransCmp.lt_trans h h')

lemma cmp_lt_or_gt [Std.OrientedCmp cmp] [Std.LawfulEqCmp cmp] (h : a ≠ b) :
    cmp a b = .lt ∨ cmp b a = .lt := by
  cases hab : cmp a b with
  | lt => exact Or.inl rfl
  | eq => exact absurd (Std.LawfulEqCmp.eq_of_compare hab) h
  | gt => exact Or.inr (Std.OrientedCmp.gt_iff_lt.mp hab)

namespace Increasing

lemma nodup [Std.ReflCmp cmp] (h : Increasing cmp l) : l.Nodup := by
  refine h.imp fun {a b} hab => ?_
  rintro rfl
  exact cmp_not_lt_self a hab

lemma erase [DecidableEq α] (h : Increasing cmp l) (x : α) : Increasing cmp (l.erase x) :=
  h.sublist List.erase_sublist

lemma ordInsert [Std.TransCmp cmp] [Std.LawfulEqCmp cmp] (h : Increasing cmp l) (hx : x ∉ l) :
    Increasing cmp (ordInsert cmp x l) := by
  induction l with
  | nil => simp
  | cons a l ih =>
      obtain ⟨ha, hl⟩ := List.pairwise_cons.mp h
      simp only [List.mem_cons, not_or] at hx
      simp only [Ordered.ordInsert, List.orderedInsert]
      by_cases hxa : cmp x a = .lt
      · rw [if_pos hxa]
        refine List.pairwise_cons.mpr ⟨fun b hb => ?_, h⟩
        rcases List.mem_cons.mp hb with rfl | hb
        · exact hxa
        · exact Std.TransCmp.lt_trans hxa (ha b hb)
      · rw [if_neg hxa]
        refine List.pairwise_cons.mpr ⟨fun b hb => ?_, ih hl hx.2⟩
        rcases mem_ordInsert.mp hb with rfl | hb
        · exact (cmp_lt_or_gt hx.1).resolve_left hxa
        · exact ha b hb

/-- Only the order among the elements matters. -/
lemma congr (h : Increasing cmp l) (hc : ∀ a ∈ l, ∀ b ∈ l, cmp' a b = cmp a b) :
    Increasing cmp' l :=
  h.imp_of_mem fun {a b} ha hb hab => by rw [hc a ha b hb, hab]

/-- The head is the least element. -/
lemma head_lt (h : Increasing cmp l) (ha : l.head? = some a) (hb : b ∈ l) (hne : b ≠ a) :
    cmp a b = .lt := by
  cases l with
  | nil => simp at ha
  | cons c l =>
      obtain rfl : c = a := by simpa using ha
      exact (List.pairwise_cons.mp h).1 b ((List.mem_cons.mp hb).resolve_left hne)

/-- A search finds the least match. -/
lemma find?_eq_some_iff [Std.TransCmp cmp] [Std.LawfulEqCmp cmp] {p : α → Bool}
    (h : Increasing cmp l) :
    l.find? p = some a ↔ a ∈ l ∧ p a = true ∧ ∀ b ∈ l, p b = true → b = a ∨ cmp a b = .lt := by
  induction l with
  | nil => simp
  | cons c l ih =>
      obtain ⟨hc, hl⟩ := List.pairwise_cons.mp h
      by_cases hp : p c = true
      · rw [List.find?_cons_of_pos hp, Option.some.injEq]
        constructor
        · rintro rfl
          refine ⟨List.mem_cons_self .., hp, fun b hb _ => ?_⟩
          rcases List.mem_cons.mp hb with rfl | hb
          · exact Or.inl rfl
          · exact Or.inr (hc b hb)
        · rintro ⟨ha, -, hleast⟩
          rcases hleast c (List.mem_cons_self ..) hp with hca | hac
          · exact hca
          · rcases List.mem_cons.mp ha with rfl | ha
            · rfl
            · exact absurd (hc a ha) (cmp_lt_asymm hac)
      · rw [List.find?_cons_of_neg hp, ih hl]
        constructor
        · rintro ⟨ha, hpa, hleast⟩
          refine ⟨List.mem_cons_of_mem _ ha, hpa, fun b hb hpb => ?_⟩
          rcases List.mem_cons.mp hb with rfl | hb
          · exact absurd hpb hp
          · exact hleast b hb hpb
        · rintro ⟨ha, hpa, hleast⟩
          have hac : a ∈ l := by
            rcases List.mem_cons.mp ha with rfl | ha
            · exact absurd hpa hp
            · exact ha
          exact ⟨hac, hpa, fun b hb hpb => hleast b (List.mem_cons_of_mem _ hb) hpb⟩

/-- The head is the only least element. -/
lemma head?_eq_some_iff [Std.TransCmp cmp] [Std.LawfulEqCmp cmp] (h : Increasing cmp l) :
    l.head? = some a ↔ a ∈ l ∧ ∀ b ∈ l, b = a ∨ cmp a b = .lt := by
  have hfind := h.find?_eq_some_iff (p := fun _ => true) (a := a)
  have hhead : l.find? (fun _ => true) = l.head? := by cases l <;> rfl
  rw [hhead] at hfind
  simpa using hfind

/-- The first element above a member is the one after it. -/
lemma find?_lt_append [Std.TransCmp cmp] {l₁ l₂ : List α} (h : Increasing cmp (l₁ ++ a :: l₂)) :
    (l₁ ++ a :: l₂).find? (fun x => cmp a x = .lt) = l₂.head? := by
  obtain ⟨-, h₂, h₁₂⟩ := List.pairwise_append.mp h
  obtain ⟨ha, -⟩ := List.pairwise_cons.mp h₂
  have hnone : l₁.find? (fun x => cmp a x = .lt) = none := by
    rw [List.find?_eq_none]
    intro x hx hax
    have hxa := h₁₂ x hx a (List.mem_cons_self ..)
    exact cmp_lt_asymm hxa (by simpa using hax)
  rw [List.find?_append, hnone, Option.none_or,
    List.find?_cons_of_neg (by simpa using cmp_not_lt_self a)]
  cases l₂ with
  | nil => rfl
  | cons b l₂ => rw [List.find?_cons_of_pos (by simpa using ha b (by simp)), List.head?_cons]

/-- The last element is the greatest. -/
lemma getLast?_eq_some_iff [Std.TransCmp cmp] (h : Increasing cmp l) :
    l.getLast? = some a ↔ a ∈ l ∧ ∀ b ∈ l, b = a ∨ cmp b a = .lt := by
  rcases List.eq_nil_or_concat l with rfl | ⟨l, c, rfl⟩
  · simp
  · rw [List.concat_eq_append] at h ⊢
    obtain ⟨-, -, hlc⟩ := List.pairwise_append.mp h
    simp only [List.getLast?_append, List.getLast?_singleton, Option.some_or, Option.some.injEq,
      List.mem_append, List.mem_singleton]
    constructor
    · rintro rfl
      refine ⟨Or.inr rfl, fun b hb => ?_⟩
      rcases hb with hb | rfl
      · exact Or.inr (hlc b hb c (List.mem_singleton_self c))
      · exact Or.inl rfl
    · rintro ⟨ha | rfl, hall⟩
      · rcases hall c (Or.inr rfl) with hca | hca
        · exact hca
        · exact absurd (hlc a ha c (List.mem_singleton_self c)) (cmp_lt_asymm hca)
      · rfl

end Increasing

/-! ### The union of two increasing lists -/

/-- The elements of two lists in order. -/
def merged (cmp : α → α → Ordering) (l l' : List α) : List α := l.foldr (ordInsert cmp) l'

@[simp] lemma mem_merged {l' : List α} : a ∈ merged cmp l l' ↔ a ∈ l ∨ a ∈ l' := by
  induction l with
  | nil => simp [merged]
  | cons b l ih =>
      rw [merged, List.foldr_cons, mem_ordInsert, List.mem_cons, or_assoc, ← ih]
      rfl

lemma length_merged {l' : List α} : (merged cmp l l').length = l.length + l'.length := by
  induction l with
  | nil => simp [merged]
  | cons b l ih =>
      have hrec : (List.foldr (ordInsert cmp) l' l).length = l.length + l'.length := ih
      rw [merged, List.foldr_cons, ordInsert, List.orderedInsert_length, hrec, List.length_cons]
      omega

lemma Increasing.merged [Std.TransCmp cmp] [Std.LawfulEqCmp cmp] {l' : List α}
    (h : Increasing cmp l) (h' : Increasing cmp l') (hdisj : ∀ a ∈ l, a ∉ l') :
    Increasing cmp (merged cmp l l') := by
  induction l with
  | nil => exact h'
  | cons b l ih =>
      obtain ⟨hb, hl⟩ := List.pairwise_cons.mp h
      refine Increasing.ordInsert (ih hl fun a ha => hdisj a (List.mem_cons_of_mem _ ha)) ?_
      rw [← Ordered.merged, mem_merged, not_or]
      exact ⟨fun hbl => cmp_not_lt_self b (hb b hbl), hdisj b (List.mem_cons_self ..)⟩

/-! ### Keys with an address as tie-breaker -/

/-- Compare by key and, on a tie, by address. -/
def keyCmp [Ord κ] (key : α → κ) (addr : α → ℕ) : α → α → Ordering :=
  compareLex (compareOn key) (compareOn addr)

instance [Ord κ] [Std.TransOrd κ] (key : α → κ) (addr : α → ℕ) :
    Std.TransCmp (keyCmp key addr) :=
  inferInstanceAs (Std.TransCmp (compareLex (compareOn key) (compareOn addr)))

lemma lawfulEqCmp_keyCmp [Ord κ] [Std.TransOrd κ] (key : α → κ) {addr : α → ℕ}
    (h : Function.Injective addr) : Std.LawfulEqCmp (keyCmp key addr) where
  eq_of_compare {a b} hab := by
    simp only [keyCmp, compareLex_eq_eq, compareOn] at hab
    exact h (Std.LawfulEqCmp.eq_of_compare hab.2)

lemma keyCmp_eq_lt [Ord κ] [Std.TransOrd κ] {key : α → κ} {addr : α → ℕ} :
    keyCmp key addr a b = .lt ↔
      compare (key a) (key b) = .lt ∨ (compare (key a) (key b) = .eq ∧ addr a < addr b) := by
  simp only [keyCmp, compareLex, compareOn]
  cases h : compare (key a) (key b) <;> simp [Ordering.then, Nat.compare_eq_lt]

end Ordered

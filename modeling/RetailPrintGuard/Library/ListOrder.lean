import Mathlib.Data.List.Sort
import Mathlib.Data.List.Dedup

/-! # Sorted lists and ordered pairs

Sorting by a key that separates the elements of a list is a function of its
elements alone, and commutes with filtering. -/
namespace RetailPrintGuard.Library.ListOrder

variable {α : Type} {r : α → α → Prop} [DecidableRel r] [Std.Total r] [IsTrans α r]

/-- The order separates the elements of the list. -/
def Separates (r : α → α → Prop) (l : List α) : Prop :=
  ∀ a ∈ l, ∀ b ∈ l, r a b → r b a → a = b

theorem insertionSort_congr {l l' : List α} (hl : Separates r l) (h : l.Perm l') :
    l.insertionSort r = l'.insertionSort r := by
  have hp : (l.insertionSort r).Perm (l'.insertionSort r) :=
    (List.perm_insertionSort r l).trans (h.trans (List.perm_insertionSort r l').symm)
  refine hp.eq_of_pairwise ?_ (List.pairwise_insertionSort r l) (List.pairwise_insertionSort r l')
  intro a b ha hb
  have ha' : a ∈ l := (List.perm_insertionSort r l).mem_iff.mp ha
  have hb' : b ∈ l := h.mem_iff.mpr ((List.perm_insertionSort r l').mem_iff.mp hb)
  exact hl a ha' b hb'

theorem filter_insertionSort {l : List α} (hl : Separates r l) (p : α → Bool) :
    (l.insertionSort r).filter p = (l.filter p).insertionSort r := by
  have hp : ((l.insertionSort r).filter p).Perm ((l.filter p).insertionSort r) :=
    ((List.perm_insertionSort r l).filter p).trans (List.perm_insertionSort r _).symm
  refine hp.eq_of_pairwise ?_ ((List.pairwise_insertionSort r l).filter p)
    (List.pairwise_insertionSort r _)
  intro a b ha hb
  have ha' : a ∈ l := (List.perm_insertionSort r l).mem_iff.mp (List.mem_of_mem_filter ha)
  have hb' : b ∈ l := List.mem_of_mem_filter ((List.perm_insertionSort r _).mem_iff.mp hb)
  exact hl a ha' b hb'

omit [Std.Total r] [IsTrans α r] in
@[simp] theorem mem_sorted {l : List α} {a : α} : a ∈ l.insertionSort r ↔ a ∈ l :=
  (List.perm_insertionSort r l).mem_iff

/-- Two lists without repetitions and with the same elements sort alike. -/
theorem insertionSort_eq_of_mem_iff {l l' : List α} (hl : Separates r l) (hn : l.Nodup)
    (hn' : l'.Nodup) (h : ∀ a, a ∈ l ↔ a ∈ l') : l.insertionSort r = l'.insertionSort r :=
  insertionSort_congr hl ((List.perm_ext_iff_of_nodup hn hn').mpr h)

omit [DecidableRel r] [IsTrans α r] in
/-- The last element of a sorted list is the one no other comes after. -/
theorem getLast?_of_pairwise {l : List α} (hsorted : l.Pairwise r) (hl : Separates r l) {a : α} :
    l.getLast? = some a ↔ a ∈ l ∧ ∀ b ∈ l, r b a := by
  constructor
  · intro h
    refine ⟨List.mem_of_getLast? h, fun b hb => ?_⟩
    obtain ⟨front, rfl⟩ := List.getLast?_eq_some_iff.mp h
    rw [List.mem_append, List.mem_singleton] at hb
    rw [List.pairwise_append] at hsorted
    rcases hb with hb | rfl
    · exact hsorted.2.2 b hb a (List.mem_singleton.mpr rfl)
    · exact (Std.Total.total b b).elim id id
  · intro h
    cases hlast : l.getLast? with
    | none =>
      rw [List.getLast?_eq_none_iff] at hlast
      exact absurd (hlast ▸ h.1) List.not_mem_nil
    | some b =>
      have hb := List.mem_of_getLast? hlast
      obtain ⟨front, rfl⟩ := List.getLast?_eq_some_iff.mp hlast
      have ha := h.1
      rw [List.mem_append, List.mem_singleton] at ha
      rw [List.pairwise_append] at hsorted
      rcases ha with ha | rfl
      · have hab := hsorted.2.2 a ha b (List.mem_singleton.mpr rfl)
        rw [hl a h.1 b hb hab (h.2 b hb)]
      · rfl

omit [DecidableRel r] [IsTrans α r] in
/-- The first element of a sorted list is the one no other comes before. -/
theorem head?_of_pairwise {l : List α} (hsorted : l.Pairwise r) (hl : Separates r l) {a : α} :
    l.head? = some a ↔ a ∈ l ∧ ∀ b ∈ l, r a b := by
  have : Std.Total (fun a b => r b a) := ⟨fun a b => Std.Total.total b a⟩
  have h := getLast?_of_pairwise (List.pairwise_reverse.mpr hsorted)
    (fun a ha b hb hab hba => hl a (List.mem_reverse.mp ha) b (List.mem_reverse.mp hb) hba hab)
    (a := a)
  rw [List.getLast?_reverse] at h
  simpa only [List.mem_reverse] using h

/-- `(l[i], l[j])` for `i < j`, in the order of two nested loops. -/
def orderedPairs : List α → List (α × α)
  | [] => []
  | x :: xs => xs.map (fun y => (x, y)) ++ orderedPairs xs

theorem mem_orderedPairs {l : List α} {a b : α} : (a, b) ∈ orderedPairs l ↔ [a, b].Sublist l := by
  induction l with
  | nil => simp [orderedPairs]
  | cons x xs ih =>
    simp only [orderedPairs, List.mem_append, List.mem_map, Prod.mk.injEq, ih]
    constructor
    · rintro (⟨y, hy, hx, hb⟩ | h)
      · rw [← hx, ← hb]
        exact (List.singleton_sublist.mpr hy).cons_cons x
      · exact h.cons x
    · intro h
      cases h with
      | cons _ h => exact Or.inr h
      | cons_cons _ h => exact Or.inl ⟨b, List.singleton_sublist.mp h, rfl, rfl⟩

theorem mem_of_mem_orderedPairs {l : List α} {a b : α} (h : (a, b) ∈ orderedPairs l) :
    a ∈ l ∧ b ∈ l := by
  have hs := (mem_orderedPairs.mp h).subset
  exact ⟨hs (by simp), hs (by simp)⟩

/-- Two different elements occur in one order or the other. -/
theorem orderedPairs_total {l : List α} {a b : α} (ha : a ∈ l) (hb : b ∈ l) (hne : a ≠ b) :
    (a, b) ∈ orderedPairs l ∨ (b, a) ∈ orderedPairs l := by
  induction l with
  | nil => simp at ha
  | cons x xs ih =>
    simp only [orderedPairs, List.mem_append, List.mem_map, Prod.mk.injEq]
    rcases List.mem_cons.mp ha with hax | ha <;> rcases List.mem_cons.mp hb with hbx | hb
    · exact absurd (hax.trans hbx.symm) hne
    · exact Or.inl (Or.inl ⟨b, hb, hax.symm, rfl⟩)
    · exact Or.inr (Or.inl ⟨a, ha, hbx.symm, rfl⟩)
    · exact (ih ha hb).imp Or.inr Or.inr

/-- A symmetric relation that holds of every element with itself holds of all
ordered pairs exactly when it holds of all pairs. -/
theorem forall_orderedPairs {l : List α} {R : α → α → Prop} (hsymm : ∀ a b, R a b → R b a)
    (hrefl : ∀ a, R a a) :
    (∀ p ∈ orderedPairs l, R p.1 p.2) ↔ ∀ a ∈ l, ∀ b ∈ l, R a b := by
  constructor
  · intro h a ha b hb
    by_cases hab : a = b
    · subst hab; exact hrefl a
    · rcases orderedPairs_total ha hb hab with hp | hp
      · exact h _ hp
      · exact hsymm _ _ (h _ hp)
  · rintro h ⟨a, b⟩ hp
    obtain ⟨ha, hb⟩ := mem_of_mem_orderedPairs hp
    exact h a ha b hb

/-! ## Late elements of a sorted list -/

omit [DecidableRel r] [Std.Total r] [IsTrans α r] in
/-- Where what is late stays late, a sorted list is its early elements and then
its late ones. -/
theorem eq_early_append_late {late : α → Bool} {l : List α} (hsorted : l.Pairwise r)
    (hlate : ∀ a ∈ l, ∀ b ∈ l, r a b → late a = true → late b = true) :
    l = (l.filter fun a => !late a) ++ l.filter late := by
  induction l with
  | nil => rfl
  | cons a l ih =>
    obtain ⟨hhead, htail⟩ := List.pairwise_cons.mp hsorted
    have hrest := ih htail fun b hb c hc =>
      hlate b (List.mem_cons_of_mem _ hb) c (List.mem_cons_of_mem _ hc)
    cases ha : late a with
    | false =>
      rw [List.filter_cons_of_pos (by simp [ha]), List.filter_cons_of_neg (by simp [ha]),
        List.cons_append, ← hrest]
    | true =>
      have hall : ∀ b ∈ l, late b = true := fun b hb =>
        hlate a List.mem_cons_self b (List.mem_cons_of_mem _ hb) (hhead b hb) ha
      have hnone : (l.filter fun b => !late b) = [] :=
        List.filter_eq_nil_iff.mpr fun b hb => by simp [hall b hb]
      rw [List.filter_cons_of_neg (by simp [ha]), List.filter_cons_of_pos ha, hnone,
        List.nil_append, List.filter_eq_self.mpr hall]

omit [DecidableRel r] [Std.Total r] [IsTrans α r] in
/-- A bounded part of a sorted list reaches a late element exactly when the
early ones leave room for it. -/
theorem exists_late_mem_take_iff {late : α → Bool} {l : List α} (hsorted : l.Pairwise r)
    (hlate : ∀ a ∈ l, ∀ b ∈ l, r a b → late a = true → late b = true)
    (hex : ∃ a ∈ l, late a = true) {n : Nat} :
    (∃ a ∈ l.take n, late a = true) ↔ (l.filter fun a => !late a).length < n := by
  have hsplit := eq_early_append_late hsorted hlate
  obtain ⟨b, rest, hrest⟩ : ∃ b rest, l.filter late = b :: rest := by
    obtain ⟨a, ha, hlate⟩ := hex
    exact List.exists_cons_of_ne_nil (List.ne_nil_of_mem (List.mem_filter.mpr ⟨ha, hlate⟩))
  constructor
  · rintro ⟨a, ha, halate⟩
    by_contra hle
    rw [hsplit, List.take_append_of_le_length (Nat.le_of_not_lt hle)] at ha
    have hearly := (List.mem_filter.mp (List.mem_of_mem_take ha)).2
    rw [halate] at hearly
    cases hearly
  · intro hlt
    have hb : b ∈ l.filter late := by rw [hrest]; exact List.mem_cons_self
    refine ⟨b, ?_, (List.mem_filter.mp hb).2⟩
    obtain ⟨k, hk⟩ := Nat.exists_eq_add_of_lt hlt
    rw [hsplit, hrest, List.take_append, List.mem_append]
    refine Or.inr ?_
    rw [show n - (l.filter fun a => !late a).length = k + 1 by omega, List.take_succ_cons]
    exact List.mem_cons_self

/-! ## Places in a sorted list -/

omit [DecidableRel r] [Std.Total r] [IsTrans α r] in
/-- An element of a sorted list is among its first ones when few others come
before it. -/
theorem mem_take_iff {before : α → α → Bool} {l : List α}
    (hsorted : l.Pairwise fun a b => before a b = true ∧ before b a = false)
    (hirrefl : ∀ a ∈ l, before a a = false) {a : α} {n : Nat} :
    a ∈ l.take n ↔ a ∈ l ∧ l.countP (fun b => before b a) < n := by
  induction l generalizing n with
  | nil => simp
  | cons b l ih =>
    obtain ⟨hhead, htail⟩ := List.pairwise_cons.mp hsorted
    have hrest := @ih htail (fun c hc => hirrefl c (List.mem_cons_of_mem _ hc))
    cases n with
    | zero => simp
    | succ n =>
      rw [List.take_succ_cons, List.mem_cons, hrest, List.mem_cons, List.countP_cons]
      constructor
      · rintro (rfl | ⟨ha, hcount⟩)
        · have hnone : l.countP (fun c => before c a) = 0 :=
            List.countP_eq_zero.mpr fun c hc => by simp [(hhead c hc).2]
          refine ⟨Or.inl rfl, ?_⟩
          rw [hnone, hirrefl a List.mem_cons_self]
          exact Nat.succ_pos n
        · refine ⟨Or.inr ha, ?_⟩
          rw [if_pos (hhead a ha).1]
          omega
      · rintro ⟨rfl | ha, hcount⟩
        · exact Or.inl rfl
        · rw [if_pos (hhead a ha).1] at hcount
          exact Or.inr ⟨ha, by omega⟩

end RetailPrintGuard.Library.ListOrder

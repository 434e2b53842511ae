import Mathlib.Data.List.Nodup
import Mathlib.Data.List.Dedup
import Mathlib.Data.List.Perm.Subperm

/-! # A memory of the last elements

What refuses the elements it remembers, and remembers the last ones it took, takes
an element again only behind as many different others as it remembers. -/
namespace RetailPrintGuard.Library.BoundedMemory

variable {α : Type} {limit i j : Nat} {taken : List α} {x : α}

/-- The last elements of a history. -/
def lastOf (limit : Nat) (taken : List α) : List α := taken.drop (taken.length - limit)

/-- No element is one of those right before it. -/
def Spaced (limit : Nat) (taken : List α) : Prop :=
  ∀ i j : Nat, i < j → j ≤ i + limit → ∀ x, taken[i]? = some x → taken[j]? ≠ some x

/-- Between an element and its return stand as many different ones. -/
def ReturnsLate [DecidableEq α] (limit : Nat) (taken : List α) : Prop :=
  ∀ (i j : Nat) (x : α), i < j → taken[i]? = some x → taken[j]? = some x →
    limit ≤ ((taken.take j).drop (i + 1)).dedup.length

theorem mem_lastOf : x ∈ lastOf limit taken ↔
    ∃ i : Nat, taken.length ≤ i + limit ∧ taken[i]? = some x := by
  rw [lastOf, List.mem_iff_getElem?]
  constructor
  · rintro ⟨k, hk⟩
    rw [List.getElem?_drop] at hk
    exact ⟨_, by omega, hk⟩
  · rintro ⟨i, hi, hx⟩
    refine ⟨i - (taken.length - limit), ?_⟩
    rw [List.getElem?_drop, show taken.length - limit + (i - (taken.length - limit)) = i by omega]
    exact hx

/-- What is remembered behind a new element: the oldest one may go. -/
theorem lastOf_concat : lastOf limit (taken ++ [x]) =
    (lastOf limit taken ++ [x]).drop ((lastOf limit taken ++ [x]).length - limit) := by
  have hsplit : lastOf limit taken ++ [x] = (taken ++ [x]).drop (taken.length - limit) := by
    rw [lastOf, List.drop_append_of_le_length (Nat.sub_le _ _)]
  rw [hsplit, lastOf, List.drop_drop, List.length_drop, List.length_append, List.length_singleton]
  congr 1
  omega

theorem spaced_nil : Spaced limit ([] : List α) :=
  fun _ _ _ _ _ hi => absurd hi (by simp)

theorem Spaced.concat (h : Spaced limit taken) (hx : x ∉ lastOf limit taken) :
    Spaced limit (taken ++ [x]) := by
  intro i j hij hclose y hi hj
  have hjlt := (List.getElem?_eq_some_iff.mp hj).1
  rw [List.length_append, List.length_singleton] at hjlt
  rw [List.getElem?_append_left (by omega)] at hi
  obtain hlt | heq : j < taken.length ∨ j = taken.length := by omega
  · rw [List.getElem?_append_left hlt] at hj
    exact h i j hij hclose y hi hj
  · subst heq
    obtain rfl : x = y := by simpa using hj
    exact hx (mem_lastOf.mpr ⟨i, hclose, hi⟩)

/-- The elements right behind one are all different. -/
theorem Spaced.nodup_behind (h : Spaced limit taken) (i : Nat) :
    ((taken.drop (i + 1)).take limit).Nodup := by
  rw [List.nodup_iff_getElem?_ne_getElem?]
  intro a b hab hb
  rw [List.length_take] at hb
  rw [List.getElem?_take_of_lt (by omega), List.getElem?_take_of_lt (by omega),
    List.getElem?_drop, List.getElem?_drop]
  intro heq
  obtain ⟨y, hy⟩ : ∃ y, taken[i + 1 + b]? = some y :=
    ⟨_, List.getElem?_eq_getElem (by rw [List.length_drop] at hb; omega)⟩
  exact h (i + 1 + a) (i + 1 + b) (by omega) (by omega) y (heq.trans hy) hy

theorem Spaced.returnsLate [DecidableEq α] (h : Spaced limit taken) :
    ReturnsLate limit taken := by
  intro i j x hij hi hj
  have hfar : i + limit < j := by
    by_contra hclose
    exact h i j hij (Nat.not_lt.mp hclose) x hi hj
  have hjlt := (List.getElem?_eq_some_iff.mp hj).1
  have hpart : (taken.drop (i + 1)).take limit ⊆ ((taken.take j).drop (i + 1)).dedup := by
    intro y hy
    rw [List.mem_dedup, List.drop_take]
    exact (List.take_sublist_take_left (by omega)).subset hy
  have hlength : ((taken.drop (i + 1)).take limit).length = limit := by
    rw [List.length_take, List.length_drop]
    omega
  rw [← hlength]
  exact ((h.nodup_behind i).subperm hpart).length_le

end RetailPrintGuard.Library.BoundedMemory

import Mathlib.Data.List.Basic

/-! # Paths through a transition table

A history is a path when each element may follow the one before it. What a path
can reach without one of its exits is read off the successors alone. -/
namespace RetailPrintGuard.Library.Paths

variable {σ : Type} (follows : Option σ → σ → Prop)

/-- Each element follows the one before it, and the first one what came earlier. -/
def Path : Option σ → List σ → Prop
  | _, [] => True
  | previous, next :: rest => follows previous next ∧ Path (some next) rest

variable {follows} {previous : Option σ} {states : List σ} {i j : Nat} {state next : σ}

/-- Behind an element a path goes on from there. -/
theorem Path.behind (h : Path follows previous states) (hi : states[i]? = some state) :
    Path follows (some state) (states.drop (i + 1)) := by
  induction i generalizing previous states with
  | zero =>
    cases states with
    | nil => cases hi
    | cons first rest =>
      obtain rfl := Option.some.inj hi
      exact h.2
  | succ i ih =>
    cases states with
    | nil => cases hi
    | cons first rest => exact ih h.2 hi

/-- When the successors of an element are exits or in a set that only an exit
leaves, so is all that follows it, up to the first exit. -/
theorem Path.stays {inside exit : σ → Prop}
    (closed : ∀ state, inside state → ∀ next, follows (some state) next → exit next ∨ inside next)
    (first : ∀ next, follows (some state) next → exit next ∨ inside next)
    (h : Path follows (some state) states) (hj : states[j]? = some next) :
    inside next ∨ ∃ k ≤ j, ∃ left, states[k]? = some left ∧ exit left := by
  induction j generalizing state states with
  | zero =>
    cases states with
    | nil => cases hj
    | cons head rest =>
      obtain rfl := Option.some.inj hj
      obtain hexit | hinside := first head h.1
      · exact Or.inr ⟨0, Nat.le_refl 0, head, rfl, hexit⟩
      · exact Or.inl hinside
  | succ j ih =>
    cases states with
    | nil => cases hj
    | cons head rest =>
      obtain hexit | hinside := first head h.1
      · exact Or.inr ⟨0, Nat.zero_le _, head, rfl, hexit⟩
      · obtain hnext | ⟨k, hk, left, hleft, hexit⟩ := ih (closed head hinside) h.2 hj
        · exact Or.inl hnext
        · exact Or.inr ⟨k + 1, Nat.succ_le_succ hk, left, hleft, hexit⟩

/-- Of two elements of a path, the later one is in such a set of the earlier
one, or an exit is passed on the way. -/
theorem Path.passes {inside exit : σ → Prop}
    (closed : ∀ state, inside state → ∀ next, follows (some state) next → exit next ∨ inside next)
    (first : ∀ next, follows (some state) next → exit next ∨ inside next)
    (h : Path follows previous states) (hi : states[i]? = some state) (hij : i < j)
    (hj : states[j]? = some next) :
    inside next ∨ ∃ k, i < k ∧ k ≤ j ∧ ∃ left, states[k]? = some left ∧ exit left := by
  have hlater : (states.drop (i + 1))[j - (i + 1)]? = some next := by
    rw [List.getElem?_drop, Nat.add_sub_cancel' hij]
    exact hj
  obtain hnext | ⟨k, hk, left, hleft, hexit⟩ := (h.behind hi).stays closed first hlater
  · exact Or.inl hnext
  · rw [List.getElem?_drop] at hleft
    exact Or.inr ⟨i + 1 + k, by omega, by omega, left, hleft, hexit⟩

end RetailPrintGuard.Library.Paths

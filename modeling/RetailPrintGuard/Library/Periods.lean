import Mathlib.Data.List.Pairwise
import Mathlib.Order.Lattice

/-! # Periods that follow one another

A list of periods, the newest first. Each one ends where the one before it in
the list starts. -/
namespace RetailPrintGuard.Library.Periods
variable {α : Type} [LinearOrder α]

structure Period (α : Type) where
  start : α
  /-- nothing while the period lasts -/
  stop : Option α
deriving DecidableEq

/-- The start belongs to the period, the end does not. -/
def Period.holds (p : Period α) (t : α) : Bool := decide (p.start ≤ t) && p.stop.all fun u => t < u

/-- Every period ends where its successor starts, the first one at `next`. -/
def Abutting : Option α → List (Period α) → Prop
  | _, [] => True
  | next, p :: rest => p.stop = next ∧ Abutting (some p.start) rest

/-- No period starts after its successor. -/
def Ordered : Option α → List (Period α) → Prop
  | _, [] => True
  | next, p :: rest => (∀ u ∈ next, p.start ≤ u) ∧ Ordered (some p.start) rest

/-- No period ends before it starts, and no instant is in two of them. -/
structure Exclusive (periods : List (Period α)) : Prop where
  forward : ∀ p ∈ periods, ∀ u ∈ p.stop, p.start ≤ u
  single : ∀ t, (periods.filter (·.holds t)).length ≤ 1

theorem Period.holds_iff {p : Period α} {t : α} :
    p.holds t = true ↔ p.start ≤ t ∧ ∀ u ∈ p.stop, t < u := by
  cases h : p.stop <;> simp [holds, h]

theorem Abutting.forward_iff {next : Option α} {periods : List (Period α)}
    (h : Abutting next periods) :
    (∀ p ∈ periods, ∀ u ∈ p.stop, p.start ≤ u) ↔ Ordered next periods := by
  induction periods generalizing next with
  | nil => exact iff_of_true (by simp) trivial
  | cons p rest ih =>
    obtain ⟨hstop, hrest⟩ := h
    rw [List.forall_mem_cons, ih hrest, hstop]
    rfl

/-- What holds before `next` is over at `next`. -/
theorem Abutting.before {next : Option α} {periods : List (Period α)} {p : Period α} {t u : α}
    (h : Abutting next periods) (hordered : Ordered next periods) (hp : p ∈ periods)
    (hholds : p.holds t = true) (hu : u ∈ next) : t < u := by
  induction periods generalizing next u with
  | nil => cases hp
  | cons q rest ih =>
    obtain ⟨hstop, hrest⟩ := h
    rcases List.mem_cons.mp hp with rfl | hp
    · rw [← hstop] at hu
      exact (Period.holds_iff.mp hholds).2 u hu
    · exact lt_of_lt_of_le (ih hrest hordered.2 hp rfl) (hordered.1 u hu)

theorem Abutting.single {next : Option α} {periods : List (Period α)} (h : Abutting next periods)
    (hordered : Ordered next periods) (t : α) : (periods.filter (·.holds t)).length ≤ 1 := by
  induction periods generalizing next with
  | nil => exact Nat.zero_le 1
  | cons p rest ih =>
    obtain ⟨-, hrest⟩ := h
    by_cases hp : p.holds t = true
    · have hnone : rest.filter (·.holds t) = [] := by
        rw [List.filter_eq_nil_iff]
        intro q hq hholds
        exact absurd (hrest.before hordered.2 hq hholds rfl)
          (not_lt.mpr (Period.holds_iff.mp hp).1)
      rw [List.filter_cons, if_pos hp, hnone]
      exact Nat.le_refl 1
    · rw [List.filter_cons, if_neg hp]
      exact ih hrest hordered.2

/-- Periods that abut exclude one another exactly when they are in order. -/
theorem Abutting.exclusive_iff {next : Option α} {periods : List (Period α)}
    (h : Abutting next periods) : Exclusive periods ↔ Ordered next periods :=
  ⟨fun hexclusive => h.forward_iff.mp hexclusive.forward,
    fun hordered => ⟨h.forward_iff.mpr hordered, h.single hordered⟩⟩

end RetailPrintGuard.Library.Periods

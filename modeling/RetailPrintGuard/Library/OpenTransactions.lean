import Mathlib.Data.List.Basic
import Mathlib.Logic.Function.Basic
import RetailPrintGuard.Library.Transaction

/-! # Open transactions

Transactions that write rows at the same time. A row is refused where it clashes
with a committed row, and waits where it clashes with a row of another open
transaction. What a transaction wrote becomes visible when it commits. -/
namespace RetailPrintGuard.Library.OpenTransactions
open RetailPrintGuard.Library.Transaction
variable {ι ρ : Type}

structure State (ι ρ : Type) where
  /-- the committed rows -/
  rows : List ρ
  /-- what the open transactions wrote -/
  own : ι → List ρ := fun _ => []
  /-- the transactions that committed, in order, with their rows -/
  log : List (ι × List ρ) := []

variable [DecidableEq ι]

namespace State

def write (s : State ι ρ) (i : ι) (row : ρ) : State ι ρ :=
  { s with own := Function.update s.own i (s.own i ++ [row]) }

def rollback (s : State ι ρ) (i : ι) : State ι ρ := { s with own := Function.update s.own i [] }

def commit (s : State ι ρ) (i : ι) : State ι ρ where
  rows := s.rows ++ s.own i
  own := Function.update s.own i []
  log := s.log ++ [(i, s.own i)]

end State

inductive Step (rules : Rules ρ) (s : State ι ρ) : State ι ρ → Prop
  | write (i : ι) (row : ρ) (hfits : rules.fits row = true)
      (hfree : ∀ other ∈ s.rows ++ s.own i, rules.clash other row = false)
      (hwait : ∀ j ≠ i, ∀ other ∈ s.own j, rules.clash other row = false) :
      Step rules s (s.write i row)
  | commit (i : ι) : Step rules s (s.commit i)
  | rollback (i : ι) : Step rules s (s.rollback i)

/-! ## The constraints hold -/

/-- No two rows clash. -/
def Apart (rules : Rules ρ) (rows : List ρ) : Prop :=
  rows.Pairwise fun a b => rules.clash a b = false

/-- The committed rows meet the constraints, and those of any open transaction
would meet them too. -/
structure Consistent (rules : Rules ρ) (initial : List ρ) (s : State ι ρ) : Prop where
  logged : s.rows = initial ++ s.log.flatMap Prod.snd
  apart : ∀ i, Apart rules (s.rows ++ s.own i)
  others : ∀ i j, i ≠ j → ∀ a ∈ s.own i, ∀ b ∈ s.own j, rules.clash a b = false

section
variable {rules : Rules ρ} {initial : List ρ} {s t : State ι ρ}

omit [DecidableEq ι] in
theorem Consistent.committed (h : Consistent rules initial s) (i : ι) : Apart rules s.rows :=
  (List.pairwise_append.mp (h.apart i)).1

theorem own_update {i : ι} {rows : List ρ} {j : ι} {row : ρ}
    (h : row ∈ Function.update s.own i rows j) : (j = i ∧ row ∈ rows) ∨ (j ≠ i ∧ row ∈ s.own j) := by
  by_cases hj : j = i
  · rw [hj, Function.update_self] at h
    exact .inl ⟨hj, h⟩
  · rw [Function.update_of_ne hj] at h
    exact .inr ⟨hj, h⟩

theorem Consistent.write (h : Consistent rules initial s)
    (hsymm : ∀ a b, rules.clash a b = rules.clash b a) {i : ι} {row : ρ}
    (hfree : ∀ other ∈ s.rows ++ s.own i, rules.clash other row = false)
    (hwait : ∀ j ≠ i, ∀ other ∈ s.own j, rules.clash other row = false) :
    Consistent rules initial (s.write i row) where
  logged := h.logged
  apart j := by
    show Apart rules (s.rows ++ Function.update s.own i (s.own i ++ [row]) j)
    by_cases hj : j = i
    · rw [hj, Function.update_self, ← List.append_assoc]
      refine List.pairwise_append.mpr ⟨h.apart i, List.pairwise_singleton _ _, ?_⟩
      intro other hother row' hrow'
      rw [List.mem_singleton.mp hrow']
      exact hfree other hother
    · rw [Function.update_of_ne hj]
      exact h.apart j
  others j k hjk a ha b hb := by
    rcases own_update ha with ⟨hj, ha'⟩ | ⟨hj, ha'⟩
    · rcases own_update hb with ⟨hk, -⟩ | ⟨-, hb'⟩
      · exact absurd (hj.trans hk.symm) hjk
      · rcases List.mem_append.mp ha' with ha' | ha'
        · exact h.others i k (hj ▸ hjk) a ha' b hb'
        · rw [List.mem_singleton.mp ha', hsymm]
          exact hwait k (fun hk => hjk (hj.trans hk.symm)) b hb'
    · rcases own_update hb with ⟨hk, hb'⟩ | ⟨-, hb'⟩
      · rcases List.mem_append.mp hb' with hb' | hb'
        · exact h.others j i hj a ha' b hb'
        · rw [List.mem_singleton.mp hb']
          exact hwait j hj a ha'
      · exact h.others j k hjk a ha' b hb'

theorem Consistent.rollback (h : Consistent rules initial s) (i : ι) :
    Consistent rules initial (s.rollback i) where
  logged := h.logged
  apart j := by
    show Apart rules (s.rows ++ Function.update s.own i [] j)
    by_cases hj : j = i
    · rw [hj, Function.update_self, List.append_nil]
      exact h.committed i
    · rw [Function.update_of_ne hj]
      exact h.apart j
  others j k hjk a ha b hb := by
    rcases own_update ha with ⟨-, ha⟩ | ⟨-, ha⟩
    · cases ha
    · rcases own_update hb with ⟨-, hb⟩ | ⟨-, hb⟩
      · cases hb
      · exact h.others _ _ hjk a ha b hb

theorem Consistent.commit (h : Consistent rules initial s) (i : ι) :
    Consistent rules initial (s.commit i) where
  logged := by
    show s.rows ++ s.own i = initial ++ (s.log ++ [(i, s.own i)]).flatMap Prod.snd
    rw [h.logged, List.flatMap_append, List.flatMap_singleton, List.append_assoc]
  apart j := by
    show Apart rules (s.rows ++ s.own i ++ Function.update s.own i [] j)
    by_cases hj : j = i
    · rw [hj, Function.update_self, List.append_nil]
      exact h.apart i
    · rw [Function.update_of_ne hj]
      have hmine := List.pairwise_append.mp (h.apart i)
      have htheirs := List.pairwise_append.mp (h.apart j)
      refine List.pairwise_append.mpr ⟨h.apart i, htheirs.2.1, fun a ha b hb => ?_⟩
      rcases List.mem_append.mp ha with ha | ha
      · exact htheirs.2.2 a ha b hb
      · exact h.others i j (Ne.symm hj) a ha b hb
  others j k hjk a ha b hb := by
    rcases own_update ha with ⟨-, ha⟩ | ⟨-, ha⟩
    · cases ha
    · rcases own_update hb with ⟨-, hb⟩ | ⟨-, hb⟩
      · cases hb
      · exact h.others _ _ hjk a ha b hb

omit [DecidableEq ι] in
theorem consistent_start (h : Apart rules initial) :
    Consistent rules initial ({ rows := initial } : State ι ρ) where
  logged := (List.append_nil _).symm
  apart _ := by rwa [List.append_nil]
  others _ _ _ _ ha := absurd ha List.not_mem_nil

end

end RetailPrintGuard.Library.OpenTransactions

import Mathlib.Data.List.Basic
import RetailPrintGuard.Library.Checks

/-! # Transactions over constrained rows

A transaction adds rows, which are written at each flush in the order they were
added, and it fails with the first row that is refused or at the first error of
the program itself. -/
namespace RetailPrintGuard.Library.Transaction
open RetailPrintGuard.Library.Checks

/-- Which rows fit their columns, and which two may not stand together. -/
structure Rules (ρ : Type) where
  fits : ρ → Bool
  clash : ρ → ρ → Bool

/-- A row that does not fit, a row that clashes, or an error of the program. -/
inductive Fault (ε : Type) where
  | data
  | integrity
  | raised (error : ε)
deriving DecidableEq

inductive Step (ρ ε : Type) where
  | add (row : ρ)
  | flush
  | raise (error : ε)
deriving DecidableEq

section
variable {ρ ε : Type} (rules : Rules ρ)

/-- A row is checked against its columns before it is checked against the others. -/
def insert (rows : List ρ) (row : ρ) : Except (Fault ε) (List ρ) :=
  if rules.fits row = false then .error .data
  else if ∃ other ∈ rows, rules.clash other row = true then .error .integrity
  else .ok (rows ++ [row])

def insertAll (rows : List ρ) : List ρ → Except (Fault ε) (List ρ)
  | [] => .ok rows
  | row :: rest => do
    let rows ← insert rules rows row
    insertAll rows rest

/-- A transaction, by its remaining steps and the rows that wait for a flush. -/
def run (rows pending : List ρ) : List (Step ρ ε) → Except (Fault ε) (List ρ)
  | [] => insertAll rules rows pending
  | .add row :: steps => run rows (pending ++ [row]) steps
  | .flush :: steps => do
    let rows ← insertAll rules rows pending
    run rows [] steps
  | .raise error :: _ => .error (.raised error)

def commit (rows : List ρ) (steps : List (Step ρ ε)) : Except (Fault ε) (List ρ) :=
  run rules rows [] steps

/-! ## What a transaction writes -/

/-- The rows that are written before the first error, if there is one. -/
def written (pending : List ρ) : List (Step ρ ε) → List ρ
  | [] => pending
  | .add row :: steps => written (pending ++ [row]) steps
  | .flush :: steps => pending ++ written [] steps
  | .raise _ :: _ => []

def firstError : List (Step ρ ε) → Option ε
  | [] => none
  | .add _ :: steps | .flush :: steps => firstError steps
  | .raise error :: _ => some error

/-- The rows that are added. -/
def added (steps : List (Step ρ ε)) : List ρ :=
  steps.filterMap fun
    | .add row => some row
    | _ => none

/-- Rows that can be written one after another. -/
def Insertable (rows : List ρ) : List ρ → Prop
  | [] => True
  | row :: rest =>
    rules.fits row = true ∧ (∀ other ∈ rows, rules.clash other row = false) ∧
      Insertable (rows ++ [row]) rest

/-- The first row that is refused fits its columns. -/
def Conflicts (rows : List ρ) : List ρ → Prop
  | [] => False
  | row :: rest =>
    rules.fits row = true ∧ ((∃ other ∈ rows, rules.clash other row = true) ∨
      Conflicts (rows ++ [row]) rest)

section
variable {rules} {rows rows' pending : List ρ} {row : ρ} {steps : List (Step ρ ε)}

theorem insert_eq_ok : insert rules rows row = (.ok rows' : Except (Fault ε) (List ρ)) ↔
    rules.fits row = true ∧ (∀ other ∈ rows, rules.clash other row = false) ∧
      rows' = rows ++ [row] := by
  unfold insert
  split
  · next h => simp [h]
  · next h =>
    have hfits : rules.fits row = true := by simpa using h
    split
    · next hclash =>
      obtain ⟨other, hother, hclash⟩ := hclash
      exact iff_of_false (by simp) fun hok => by simp [hok.2.1 other hother] at hclash
    · next hclash =>
      have hfree : ∀ other ∈ rows, rules.clash other row = false := fun other hother =>
        Bool.eq_false_iff.mpr fun htrue => hclash ⟨other, hother, htrue⟩
      simp only [Except.ok.injEq]
      exact ⟨fun h => ⟨hfits, hfree, h.symm⟩, fun h => h.2.2.symm⟩

theorem insert_eq_integrity :
    insert rules rows row = (.error .integrity : Except (Fault ε) (List ρ)) ↔
      rules.fits row = true ∧ ∃ other ∈ rows, rules.clash other row = true := by
  unfold insert
  split
  · next h => simp [h]
  · next h =>
    have hfits : rules.fits row = true := by simpa using h
    split
    · next hclash => exact iff_of_true rfl ⟨hfits, hclash⟩
    · next hclash => exact iff_of_false (by simp) fun hok => hclash hok.2

/-- A row is never refused for an error of the program. -/
theorem insert_ne_raised {error : ε} :
    insert rules rows row ≠ (.error (.raised error) : Except (Fault ε) (List ρ)) := by
  unfold insert
  split
  · simp
  · split <;> simp

theorem insertAll_eq_ok {new : List ρ} :
    insertAll rules rows new = (.ok rows' : Except (Fault ε) (List ρ)) ↔
      Insertable rules rows new ∧ rows' = rows ++ new := by
  induction new generalizing rows with
  | nil => simp [insertAll, Insertable, eq_comm]
  | cons row rest ih =>
    rw [insertAll, bind_eq_ok]
    constructor
    · rintro ⟨next, hnext, hrest⟩
      obtain ⟨hfits, hfree, rfl⟩ := insert_eq_ok.mp hnext
      obtain ⟨hinsertable, rfl⟩ := ih.mp hrest
      exact ⟨⟨hfits, hfree, hinsertable⟩, by simp⟩
    · rintro ⟨⟨hfits, hfree, hrest⟩, rfl⟩
      exact ⟨_, insert_eq_ok.mpr ⟨hfits, hfree, rfl⟩, ih.mpr ⟨hrest, by simp⟩⟩

theorem insertAll_eq_integrity {new : List ρ} :
    insertAll rules rows new = (.error .integrity : Except (Fault ε) (List ρ)) ↔
      Conflicts rules rows new := by
  induction new generalizing rows with
  | nil => simp [insertAll, Conflicts]
  | cons row rest ih =>
    rw [insertAll, Conflicts]
    cases hrow : (insert rules rows row : Except (Fault ε) (List ρ)) with
    | ok next =>
      obtain ⟨hfits, hfree, rfl⟩ := insert_eq_ok.mp hrow
      rw [ok_bind, ih]
      have hnone : ¬∃ other ∈ rows, rules.clash other row = true := fun ⟨other, hother, htrue⟩ => by
        rw [hfree other hother] at htrue
        cases htrue
      simp [hfits, hnone]
    | error fault =>
      cases fault with
      | integrity =>
        obtain ⟨hfits, hclash⟩ := insert_eq_integrity.mp hrow
        exact iff_of_true rfl ⟨hfits, .inl hclash⟩
      | raised error => exact absurd hrow insert_ne_raised
      | data =>
        have hfits : rules.fits row = false := by
          by_contra h
          have hfits : rules.fits row = true := by simpa using h
          unfold insert at hrow
          simp only [hfits, Bool.true_eq_false, if_false] at hrow
          split at hrow <;> cases hrow
        exact iff_of_false (by simp [bind, Except.bind]) fun h => by simp [hfits] at h

theorem insertAll_ne_raised {new : List ρ} {error : ε} :
    insertAll rules rows new ≠ (.error (.raised error) : Except (Fault ε) (List ρ)) := by
  induction new generalizing rows with
  | nil => simp [insertAll]
  | cons row rest ih =>
    rw [insertAll]
    cases hrow : (insert rules rows row : Except (Fault ε) (List ρ)) with
    | ok next => exact ih
    | error fault =>
      rintro h
      cases h
      exact insert_ne_raised hrow

theorem insertAll_append {first second : List ρ} :
    insertAll rules rows (first ++ second) =
      (insertAll rules rows first : Except (Fault ε) (List ρ)) >>= fun rows =>
        insertAll rules rows second := by
  induction first generalizing rows with
  | nil => rfl
  | cons row rest ih =>
    rw [List.cons_append, insertAll, insertAll]
    cases (insert rules rows row : Except (Fault ε) (List ρ)) with
    | ok next => exact ih
    | error fault => rfl

/-- A transaction writes its rows and then fails at its first error. -/
theorem run_eq : run rules rows pending steps =
    insertAll rules rows (written pending steps) >>= fun rows =>
      match firstError steps with
      | none => .ok rows
      | some error => .error (.raised error) := by
  induction steps generalizing rows pending with
  | nil =>
    rw [run, written, firstError]
    cases (insertAll rules rows pending : Except (Fault ε) (List ρ)) <;> rfl
  | cons step steps ih =>
    cases step with
    | add row => exact ih
    | raise error => rfl
    | flush =>
      rw [run, written, insertAll_append, firstError]
      cases (insertAll rules rows pending : Except (Fault ε) (List ρ)) with
      | ok next => exact ih
      | error fault => rfl

theorem commit_eq_ok : commit rules rows steps = .ok rows' ↔
    Insertable rules rows (written [] steps) ∧ firstError steps = none ∧
      rows' = rows ++ written [] steps := by
  rw [commit, run_eq, bind_eq_ok]
  constructor
  · rintro ⟨next, hnext, hrest⟩
    obtain ⟨hinsertable, rfl⟩ := insertAll_eq_ok.mp hnext
    cases herror : firstError steps with
    | none =>
      rw [herror] at hrest
      cases hrest
      exact ⟨hinsertable, rfl, rfl⟩
    | some error =>
      rw [herror] at hrest
      cases hrest
  · rintro ⟨hinsertable, herror, rfl⟩
    refine ⟨_, insertAll_eq_ok.mpr ⟨hinsertable, rfl⟩, ?_⟩
    rw [herror]

/-- A transaction is refused by a constraint or by the program, and not by a column. -/
def Refused (rules : Rules ρ) (rows : List ρ) (steps : List (Step ρ ε)) : Prop :=
  Conflicts rules rows (written [] steps) ∨
    (Insertable rules rows (written [] steps) ∧ firstError steps ≠ none)

theorem commit_refused : Refused rules rows steps ↔
    commit rules rows steps = .error .integrity ∨
      ∃ error, commit rules rows steps = .error (.raised error) := by
  have hrun := @run_eq ρ ε rules rows [] steps
  rw [← commit] at hrun
  unfold Refused
  cases hwrite : (insertAll rules rows (written [] steps) : Except (Fault ε) (List ρ)) with
  | ok next =>
    obtain ⟨hinsertable, -⟩ := insertAll_eq_ok.mp hwrite
    have hconflicts : ¬Conflicts rules rows (written [] steps) := fun h => by
      rw [← @insertAll_eq_integrity ρ ε, hwrite] at h
      cases h
    rw [hwrite, ok_bind] at hrun
    rw [hrun]
    cases firstError steps <;> simp [hconflicts, hinsertable]
  | error fault =>
    have hinsertable : ¬Insertable rules rows (written [] steps) := fun h => by
      rw [insertAll_eq_ok.mpr ⟨h, rfl⟩] at hwrite
      cases hwrite
    rw [hwrite] at hrun
    rw [hrun]
    cases fault with
    | integrity =>
      exact iff_of_true (.inl (insertAll_eq_integrity.mp hwrite)) (.inl rfl)
    | raised error => exact absurd hwrite insertAll_ne_raised
    | data =>
      have hconflicts : ¬Conflicts rules rows (written [] steps) := fun h => by
        rw [← @insertAll_eq_integrity ρ ε, hwrite] at h
        cases h
      simp [hconflicts, hinsertable, bind, Except.bind]

/-! ## Rows that can be written -/

theorem insertable_iff {new : List ρ} : Insertable rules rows new ↔
    (∀ row ∈ new, rules.fits row = true) ∧
      (∀ other ∈ rows, ∀ row ∈ new, rules.clash other row = false) ∧
      new.Pairwise fun other row => rules.clash other row = false := by
  induction new generalizing rows with
  | nil => simp [Insertable]
  | cons row rest ih =>
    rw [Insertable, ih, List.forall_mem_cons, List.pairwise_cons]
    constructor
    · rintro ⟨hfits, hfree, hrest, hothers, hpairs⟩
      refine ⟨⟨hfits, hrest⟩, fun other hother => ?_, fun later hlater => ?_, hpairs⟩
      · exact List.forall_mem_cons.mpr
          ⟨hfree other hother, hothers other (List.mem_append_left _ hother)⟩
      · exact hothers row (by simp) later hlater
    · rintro ⟨⟨hfits, hrest⟩, hothers, hfirst, hpairs⟩
      refine ⟨hfits, fun other hother => hothers other hother row (by simp), hrest, ?_, hpairs⟩
      intro other hother later hlater
      rcases List.mem_append.mp hother with hother | hother
      · exact hothers other hother later (List.mem_cons_of_mem _ hlater)
      · obtain rfl := List.mem_singleton.mp hother
        exact hfirst later hlater

theorem firstError_eq_none :
    firstError steps = none ↔ ∀ error, Step.raise error ∉ steps := by
  induction steps with
  | nil => simp [firstError]
  | cons step steps ih =>
    cases step with
    | add row => simp [firstError, ih]
    | flush => simp [firstError, ih]
    | raise error => exact iff_of_false (by simp [firstError]) fun h => h error (by simp)

/-- Without an error every row that is added is written. -/
theorem written_eq (h : firstError steps = none) : written pending steps = pending ++ added steps := by
  induction steps generalizing pending with
  | nil => simp [written, added]
  | cons step steps ih =>
    cases step with
    | add row =>
      rw [written, ih h]
      simp [added]
    | flush =>
      rw [written, ih h]
      simp [added]
    | raise error => cases h

theorem added_append {first second : List (Step ρ ε)} :
    added (first ++ second) = added first ++ added second := List.filterMap_append

theorem added_map {α : Type} (row : α → ρ) (values : List α) :
    added (values.map fun value => (Step.add (row value) : Step ρ ε)) = values.map row := by
  induction values with
  | nil => rfl
  | cons value values ih =>
    rw [added] at ih
    simp [added, ih]

end

end

end RetailPrintGuard.Library.Transaction

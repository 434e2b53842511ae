import Mathlib.Data.List.Nodup
import Mathlib.Data.List.Sort

/-! # Tables with a primary key

The rows of a table in insertion order. No two rows share a key, by
construction: a row whose key is taken is refused, and an update keeps every
key. -/
namespace RetailPrintGuard.Library

@[ext] structure Table (ρ : Type) {κ : Type} (key : ρ → κ) where
  rows : List ρ
  primaryKey : (rows.map key).Nodup

namespace Table
variable {ρ κ : Type} {key : ρ → κ}

def empty : Table ρ key := ⟨[], List.nodup_nil⟩

instance : Membership ρ (Table ρ key) := ⟨fun t row => row ∈ t.rows⟩

@[simp] theorem mem_rows {t : Table ρ key} {row : ρ} : row ∈ t.rows ↔ row ∈ t := Iff.rfl

@[simp] theorem not_mem_empty (row : ρ) : row ∉ (empty : Table ρ key) := List.not_mem_nil

instance [DecidableEq ρ] (row : ρ) (t : Table ρ key) : Decidable (row ∈ t) :=
  inferInstanceAs (Decidable (row ∈ t.rows))

theorem eq_of_key {t : Table ρ key} {a b : ρ} (ha : a ∈ t) (hb : b ∈ t) (h : key a = key b) :
    a = b := List.inj_on_of_nodup_map t.primaryKey ha hb h

section
variable [DecidableEq κ]

/-- The row of a key. -/
def find (t : Table ρ key) (k : κ) : Option ρ := t.rows.find? fun row => key row = k

theorem find_eq_some {t : Table ρ key} {k : κ} {row : ρ} :
    t.find k = some row ↔ row ∈ t ∧ key row = k := by
  constructor
  · intro h
    exact ⟨List.mem_of_find?_eq_some h, by simpa using List.find?_some h⟩
  · intro h
    cases hf : t.find k with
    | none =>
      have hn := List.find?_eq_none.mp hf row h.1
      simp [h.2] at hn
    | some other =>
      have ho : key other = k := by simpa using List.find?_some hf
      rw [eq_of_key (List.mem_of_find?_eq_some hf) h.1 (ho.trans h.2.symm)]

theorem find_eq_none {t : Table ρ key} {k : κ} :
    t.find k = none ↔ ∀ row ∈ t, key row ≠ k := by
  simp [find, List.find?_eq_none]

/-- Append a row, unless its key is taken. -/
def insert (t : Table ρ key) (row : ρ) : Table ρ key :=
  if h : key row ∈ t.rows.map key then t
  else
    { rows := t.rows ++ [row]
      primaryKey := by
        rw [List.map_append, List.nodup_append]
        exact ⟨t.primaryKey, by simp, fun a ha b hb hab => h (by
          rw [List.map_singleton, List.mem_singleton] at hb
          rwa [← hb, ← hab])⟩ }

theorem insert_of_fresh {t : Table ρ key} {row : ρ} (h : ∀ other ∈ t, key other ≠ key row) :
    (t.insert row).rows = t.rows ++ [row] := by
  have hn : key row ∉ t.rows.map key := by
    intro hm
    obtain ⟨other, ho, he⟩ := List.mem_map.mp hm
    exact h other ho he
  rw [insert, dif_neg hn]

theorem mem_insert {t : Table ρ key} {row : ρ} (h : ∀ other ∈ t, key other ≠ key row) {a : ρ} :
    a ∈ t.insert row ↔ a ∈ t ∨ a = row := by
  rw [← mem_rows, insert_of_fresh h, List.mem_append, List.mem_singleton, mem_rows]

/-- Whatever its key, inserting adds at most the row. -/
theorem mem_of_mem_insert {t : Table ρ key} {row a : ρ} (h : a ∈ t.insert row) : a ∈ t ∨ a = row := by
  unfold insert at h
  split at h
  · exact Or.inl h
  · simpa [← mem_rows] using h

theorem mem_insert_of_mem {t : Table ρ key} {row a : ρ} (h : a ∈ t) : a ∈ t.insert row := by
  unfold insert
  split
  · exact h
  · exact List.mem_append_left _ h

/-- After inserting, the key is taken. -/
theorem exists_mem_insert (t : Table ρ key) (row : ρ) : ∃ a ∈ t.insert row, key a = key row := by
  unfold insert
  split
  · next h => exact List.mem_map.mp h
  · exact ⟨row, List.mem_append_right _ (List.mem_singleton.mpr rfl), rfl⟩

theorem filter_insert {t : Table ρ key} {row : ρ} {p : ρ → Bool} (h : p row = false) :
    (t.insert row).rows.filter p = t.rows.filter p := by
  unfold insert
  split
  · rfl
  · simp [List.filter_append, h]

end

/-- Rewrite every row, keeping its key. -/
def update (t : Table ρ key) (f : ρ → ρ) (hf : ∀ row, key (f row) = key row) : Table ρ key where
  rows := t.rows.map f
  primaryKey := by
    have hk : key ∘ f = key := funext hf
    rw [List.map_map, hk]
    exact t.primaryKey

theorem mem_update {t : Table ρ key} {f : ρ → ρ} {hf : ∀ row, key (f row) = key row} {a : ρ} :
    a ∈ t.update f hf ↔ ∃ row ∈ t, f row = a := List.mem_map

theorem update_eq_self {t : Table ρ key} {f : ρ → ρ} (hf : ∀ row, key (f row) = key row)
    (h : ∀ row ∈ t, f row = row) : t.update f hf = t := by
  refine Table.ext ?_
  exact (List.map_congr_left h).trans (List.map_id _)

/-- A key the update leaves alone finds the same row. -/
theorem find_update [DecidableEq κ] {t : Table ρ key} {f : ρ → ρ}
    (hf : ∀ row, key (f row) = key row) {k : κ} (h : ∀ row, key row = k → f row = row) :
    (t.update f hf).find k = t.find k := by
  cases ht : t.find k with
  | none =>
    rw [find_eq_none] at ht ⊢
    intro row hrow
    obtain ⟨old, ho, rfl⟩ := List.mem_map.mp hrow
    rw [hf]
    exact ht old ho
  | some row =>
    obtain ⟨hrow, hk⟩ := find_eq_some.mp ht
    exact find_eq_some.mpr ⟨List.mem_map.mpr ⟨row, hrow, h row hk⟩, hk⟩

theorem exists_mem_update {t : Table ρ key} (f : ρ → ρ) (hf : ∀ row, key (f row) = key row)
    {row : ρ} (h : row ∈ t) : ∃ new ∈ t.update f hf, key new = key row :=
  ⟨f row, List.mem_map.mpr ⟨row, h, rfl⟩, hf row⟩

/-! ## Many rows -/

section
variable [DecidableEq κ]

/-- Append the rows whose keys are not taken. -/
def insertAll (t : Table ρ key) (rows : List ρ) : Table ρ key := rows.foldl insert t

theorem rows_insert (t : Table ρ key) (row : ρ) :
    (t.insert row).rows = t.rows ∨ (t.insert row).rows = t.rows ++ [row] := by
  unfold insert
  split
  · exact Or.inl rfl
  · exact Or.inr rfl

theorem insert_of_known {t : Table ρ key} {row : ρ} (h : key row ∈ t.rows.map key) :
    t.insert row = t := by
  unfold insert
  exact dif_pos h

/-- The old rows stay in front, and all others are from the list. -/
theorem rows_insertAll (t : Table ρ key) (rows : List ρ) :
    ∃ added, (t.insertAll rows).rows = t.rows ++ added ∧ added ⊆ rows := by
  induction rows generalizing t with
  | nil => exact ⟨[], (List.append_nil _).symm, List.nil_subset _⟩
  | cons row rows ih =>
    obtain ⟨added, hrows, hadded⟩ := ih (t.insert row)
    obtain hsame | hnew := rows_insert t row
    · exact ⟨added, by rw [insertAll, List.foldl_cons, ← insertAll, hrows, hsame],
        List.Subset.trans hadded (List.subset_cons_self _ _)⟩
    · refine ⟨row :: added, ?_, ?_⟩
      · rw [insertAll, List.foldl_cons, ← insertAll, hrows, hnew, List.append_assoc]
        rfl
      · exact List.cons_subset_cons _ hadded

theorem mem_of_mem_insertAll {t : Table ρ key} {rows : List ρ} {a : ρ} (h : a ∈ t.insertAll rows) :
    a ∈ t ∨ a ∈ rows := by
  obtain ⟨added, hrows, hadded⟩ := rows_insertAll t rows
  rw [← mem_rows, hrows, List.mem_append] at h
  exact h.imp_right fun ha => hadded ha

theorem mem_insertAll_of_mem {t : Table ρ key} {a : ρ} (rows : List ρ) (h : a ∈ t) :
    a ∈ t.insertAll rows := by
  obtain ⟨added, hrows, -⟩ := rows_insertAll t rows
  rw [← mem_rows, hrows]
  exact List.mem_append_left _ h

/-- Afterwards every key of the list is taken. -/
theorem known_insertAll (t : Table ρ key) {rows : List ρ} {row : ρ} (h : row ∈ rows) :
    key row ∈ (t.insertAll rows).rows.map key := by
  induction rows generalizing t with
  | nil => exact absurd h List.not_mem_nil
  | cons first rows ih =>
    obtain rfl | h := List.mem_cons.mp h
    · obtain ⟨a, ha, hkey⟩ := exists_mem_insert t row
      exact List.mem_map.mpr ⟨a, mem_insertAll_of_mem rows ha, hkey⟩
    · exact ih (t.insert first) h

/-- Rows whose keys are all taken add nothing. -/
theorem insertAll_of_known {t : Table ρ key} {rows : List ρ}
    (h : ∀ row ∈ rows, key row ∈ t.rows.map key) : t.insertAll rows = t := by
  induction rows with
  | nil => rfl
  | cons row rows ih =>
    rw [insertAll, List.foldl_cons, insert_of_known (h row List.mem_cons_self)]
    exact ih fun other hother => h other (List.mem_cons_of_mem _ hother)

end

/-! ## Tables that grow -/

/-- Every row has a successor with its key, which agrees with it. -/
def Grows (same : ρ → ρ → Prop) (t t' : Table ρ key) : Prop :=
  ∀ row ∈ t, ∃ new ∈ t', key new = key row ∧ same row new

section
variable {same : ρ → ρ → Prop} {t t' t'' : Table ρ key}

theorem Grows.refl (hsame : ∀ row, same row row) (t : Table ρ key) : Grows same t t :=
  fun row hrow => ⟨row, hrow, rfl, hsame row⟩

theorem Grows.trans (hsame : ∀ a b c, same a b → same b c → same a c) (h : Grows same t t')
    (h' : Grows same t' t'') : Grows same t t'' := by
  intro row hrow
  obtain ⟨new, hnew, hkey, hagree⟩ := h row hrow
  obtain ⟨last, hlast, hkey', hagree'⟩ := h' new hnew
  exact ⟨last, hlast, hkey'.trans hkey, hsame row new last hagree hagree'⟩

/-- The row with the key of an old one is its successor. -/
theorem Grows.of_key (h : Grows same t t') {row new : ρ} (hrow : row ∈ t) (hnew : new ∈ t')
    (hkey : key new = key row) : same row new := by
  obtain ⟨successor, hsuccessor, hkey', hagree⟩ := h row hrow
  rwa [eq_of_key hnew hsuccessor (hkey.trans hkey'.symm)]

theorem Grows.insert [DecidableEq κ] (hsame : ∀ row, same row row) (t : Table ρ key) (row : ρ) :
    Grows same t (t.insert row) :=
  fun old hold => ⟨old, mem_insert_of_mem hold, rfl, hsame old⟩

theorem Grows.update {f : ρ → ρ} (hf : ∀ row, key (f row) = key row) (hsame : ∀ row, same row (f row))
    (t : Table ρ key) : Grows same t (t.update f hf) :=
  fun row hrow => ⟨f row, mem_update.mpr ⟨row, hrow, rfl⟩, hf row, hsame row⟩

end

end Table

end RetailPrintGuard.Library

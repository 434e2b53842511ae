import Mathlib.Data.List.MinMax
import RetailPrintGuard.Library.HashChain

/-! # Logs of many keys in one table

Each row carries the key of its log and its number there. A writer looks for
the row with the largest number of a log and appends the next one. -/
namespace RetailPrintGuard.Library.KeyedLog
open RetailPrintGuard.Library.HashChain
variable {ρ κ δ : Type} [DecidableEq κ] {key : ρ → κ} {number : ρ → Nat}

/-- The log of a key, in the order of the rows. -/
def logOf (key : ρ → κ) (rows : List ρ) (k : κ) : List ρ := rows.filter fun row => key row = k

/-- The row with the largest number. -/
def latest (number : ρ → Nat) (log : List ρ) : Option ρ := log.argmax number

/-- The number of the latest row, or 0. -/
def lastNumber (number : ρ → Nat) (log : List ρ) : Nat := ((latest number log).map number).getD 0

/-- The numbers are 1, 2 and so on. -/
def Numbered (number : ρ → Nat) (log : List ρ) : Prop :=
  log.map number = List.range' 1 log.length

/-! ## One table -/

theorem logOf_append (rows more : List ρ) (k : κ) :
    logOf key (rows ++ more) k = logOf key rows k ++ logOf key more k :=
  List.filter_append _ _

theorem logOf_concat_self (rows : List ρ) (row : ρ) :
    logOf key (rows ++ [row]) (key row) = logOf key rows (key row) ++ [row] := by
  rw [logOf_append]
  simp [logOf]

theorem logOf_concat_of_ne {rows : List ρ} {row : ρ} {k : κ} (h : key row ≠ k) :
    logOf key (rows ++ [row]) k = logOf key rows k := by
  rw [logOf_append]
  simp [logOf, h]

theorem logOf_eq_nil {rows : List ρ} {k : κ} (h : ∀ row ∈ rows, key row ≠ k) :
    logOf key rows k = [] :=
  List.filter_eq_nil_iff.mpr fun row hrow => by simpa using h row hrow

theorem mem_logOf {rows : List ρ} {k : κ} {row : ρ} :
    row ∈ logOf key rows k ↔ row ∈ rows ∧ key row = k := by
  simp [logOf]

/-- A property of every log is kept where one log is appended to. -/
theorem forall_logOf_concat {P : κ → List ρ → Prop} {rows : List ρ} {row : ρ}
    (h : ∀ k, P k (logOf key rows k)) (hrow : P (key row) (logOf key rows (key row) ++ [row])) (k : κ) :
    P k (logOf key (rows ++ [row]) k) := by
  by_cases hk : key row = k
  · subst hk
    rwa [logOf_concat_self]
  · rw [logOf_concat_of_ne hk]
    exact h k

/-! ## Numbers -/

theorem numbered_concat {log : List ρ} {row : ρ} :
    Numbered number (log ++ [row]) ↔ Numbered number log ∧ number row = log.length + 1 := by
  unfold Numbered
  rw [List.map_append, List.length_append, List.length_singleton, List.range'_concat, List.map_cons,
    List.map_nil, Nat.one_mul, Nat.add_comm 1]
  exact ⟨fun h => ⟨List.append_inj_left' h rfl, List.singleton_inj.mp (List.append_inj_right' h rfl)⟩,
    fun h => by rw [h.1, h.2]⟩

/-- The latest row of a numbered log is its last one. -/
theorem latest_of_numbered {log : List ρ} (h : Numbered number log) :
    latest number log = log.getLast? := by
  induction log using List.reverseRecOn with
  | nil => rfl
  | append_singleton log row ih =>
    obtain ⟨hlog, hrow⟩ := numbered_concat.mp h
    rw [List.getLast?_concat, latest, List.argmax_concat,
      show log.argmax number = log.getLast? from ih hlog]
    cases hlast : log.getLast? with
    | none => rfl
    | some last =>
      have hmem : number last ∈ List.range' 1 log.length := by
        rw [← show log.map number = _ from hlog]
        exact List.mem_map_of_mem (List.mem_of_getLast? hlast)
      have hlt : number last < number row := by
        rw [List.mem_range'_1] at hmem
        omega
      exact if_pos hlt

theorem lastNumber_of_numbered {log : List ρ} (h : Numbered number log) :
    lastNumber number log = log.length := by
  rw [lastNumber, latest_of_numbered h]
  induction log using List.reverseRecOn with
  | nil => rfl
  | append_singleton log row _ =>
    rw [List.getLast?_concat, List.length_append]
    exact (numbered_concat.mp h).2

/-- A row with the next number is the latest one. -/
theorem latest_concat {log : List ρ} {row : ρ} (h : number row = lastNumber number log + 1) :
    latest number (log ++ [row]) = some row := by
  rw [latest, List.argmax_concat]
  cases hlast : log.argmax number with
  | none => rfl
  | some last =>
    have hnumber : lastNumber number log = number last := by simp [lastNumber, latest, hlast]
    exact if_pos (by omega)

/-! ## What may follow what -/

/-- Every row may follow the one before it. -/
def Follows (may : Option ρ → ρ → Prop) : Option ρ → List ρ → Prop
  | _, [] => True
  | last, row :: rest => may last row ∧ Follows may (some row) rest

theorem follows_concat {may : Option ρ → ρ → Prop} {last : Option ρ} {log : List ρ} {row : ρ} :
    Follows may last (log ++ [row]) ↔
      Follows may last log ∧ may (log.getLast?.or last) row := by
  induction log generalizing last with
  | nil => simp [Follows]
  | cons first log ih =>
    have hlast : (first :: log).getLast?.or last = log.getLast?.or (some first) := by
      cases h : log.getLast? <;> simp [List.getLast?_cons, h]
    simp only [List.cons_append, Follows, ih, hlast, and_assoc]

/-! ## Chains -/

variable {links : Links ρ δ} {start : δ}

theorem numbered_of_chained {log : List ρ} (h : Chained links 0 start log) :
    Numbered links.sequence log := h.sequences

/-- The hash of the latest row of a chain is the one the chain ends with. -/
theorem latest_hash {log : List ρ} (h : Chained links 0 start log) :
    ((latest links.sequence log).map links.hash).getD start = lastHash links start log := by
  rw [latest_of_numbered (numbered_of_chained h)]
  induction log using List.reverseRecOn with
  | nil => rfl
  | append_singleton log row _ =>
    rw [List.getLast?_concat, lastHash_append]
    rfl

/-- A row that follows the latest one continues the chain. -/
theorem chained_next {log : List ρ} {row : ρ} (h : Chained links 0 start log)
    (hsequence : links.sequence row = lastNumber links.sequence log + 1)
    (hprevious : links.previous row = ((latest links.sequence log).map links.hash).getD start) :
    Chained links 0 start (log ++ [row]) := by
  refine chained_concat.mpr ⟨h, ?_, hprevious.trans (latest_hash h)⟩
  rw [hsequence, lastNumber_of_numbered (numbered_of_chained h), Nat.zero_add]

end RetailPrintGuard.Library.KeyedLog

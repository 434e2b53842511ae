import RetailPrintGuard.Correlation.Orders
import RetailPrintGuard.Library.HashChain

/-! # The chains of an order

A transaction continues the chains of its order from the rows of the last
flush. Two continuations waiting for one flush would share a number, which the
unique key refuses, so what a flush writes continues every chain. -/
namespace RetailPrintGuard.Correlation.OrderChains
open RetailPrintGuard.Common.Python RetailPrintGuard.Correlation.Orders
open RetailPrintGuard.Library RetailPrintGuard.Library.HashChain

section
variable {ρ : Type} (orderOf : ρ → UUID) (sequence : ρ → Nat)

/-! ## Chains of rows -/

def links : Links (Row ρ) (Digest (List ρ)) where
  sequence row := sequence row.record
  previous := Row.previousRecordHash
  hash := Row.recordHash

def rowsOf (orderId : UUID) (rows : List (Row ρ)) : List (Row ρ) :=
  rows.filter fun row => orderOf row.record == orderId

def Sealed (row : Row ρ) : Prop := row.recordHash = chainedHash row.record row.previousRecordHash

/-- Every order has a chain from the zero hash, and every hash is that of its
record. -/
structure Chained (rows : List (Row ρ)) : Prop where
  linked : ∀ orderId, HashChain.Chained (links sequence) 0 zeroHash (rowsOf orderOf orderId rows)
  hashed : ∀ row ∈ rows, Sealed row

/-- Rows that continue the chain of one order. -/
structure Continues (rows : List (Row ρ)) (orderId : UUID) (added : List (Row ρ)) : Prop where
  owned : ∀ row ∈ added, orderOf row.record = orderId
  linked : HashChain.Chained (links sequence) (rowsOf orderOf orderId rows).length
    (lastHash (links sequence) zeroHash (rowsOf orderOf orderId rows)) added
  hashed : ∀ row ∈ added, Sealed row

/-- What waits for a flush, transaction by transaction. -/
def Waiting (rows added : List (Row ρ)) : Prop :=
  ∃ parts : List (UUID × List (Row ρ)), added = (parts.map Prod.snd).flatten ∧
    ∀ part ∈ parts, Continues orderOf sequence rows part.1 part.2

variable {orderOf sequence} {rows added : List (Row ρ)} {orderId : UUID}

theorem mem_rowsOf {row : Row ρ} :
    row ∈ rowsOf orderOf orderId rows ↔ row ∈ rows ∧ orderOf row.record = orderId := by
  simp [rowsOf]

theorem waiting_nil : Waiting orderOf sequence rows [] :=
  ⟨[], rfl, fun _ hpart => absurd hpart List.not_mem_nil⟩

theorem Waiting.append (h : Waiting orderOf sequence rows added) {more : List (Row ρ)}
    (hmore : Continues orderOf sequence rows orderId more) :
    Waiting orderOf sequence rows (added ++ more) := by
  obtain ⟨parts, rfl, hparts⟩ := h
  refine ⟨parts ++ [(orderId, more)], by simp, fun part hpart => ?_⟩
  obtain hpart | hpart := List.mem_append.mp hpart
  · exact hparts part hpart
  · rw [List.mem_singleton.mp hpart]
    exact hmore

/-- What waits under one order is what its transactions add. -/
theorem rowsOf_flatten {parts : List (UUID × List (Row ρ))}
    (h : ∀ part ∈ parts, ∀ row ∈ part.2, orderOf row.record = part.1) (orderId : UUID) :
    rowsOf orderOf orderId (parts.map Prod.snd).flatten =
      ((parts.filter fun part => part.1 == orderId).map Prod.snd).flatten := by
  induction parts with
  | nil => rfl
  | cons part parts ih =>
    have hrest := ih fun other ho => h other (List.mem_cons_of_mem _ ho)
    have howned := h part List.mem_cons_self
    rw [rowsOf] at hrest
    rw [rowsOf, List.map_cons, List.flatten_cons, List.filter_append, hrest]
    by_cases hid : part.1 = orderId
    · have hall : part.2.filter (fun row => orderOf row.record == orderId) = part.2 :=
        List.filter_eq_self.mpr fun row hrow => by simp [howned row hrow, hid]
      rw [hall, List.filter_cons_of_pos (by simp [hid]), List.map_cons, List.flatten_cons]
    · have hnone : part.2.filter (fun row => orderOf row.record == orderId) = [] :=
        List.filter_eq_nil_iff.mpr fun row hrow => by simp [howned row hrow, hid]
      rw [hnone, List.filter_cons_of_neg (by simp [hid]), List.nil_append]

theorem nodup_sequences
    (h : (added.map fun row => (orderOf row.record, sequence row.record)).Nodup) (orderId : UUID) :
    ((rowsOf orderOf orderId added).map fun row => sequence row.record).Nodup := by
  refine List.Nodup.map_on (fun a ha b hb hab => ?_) ((List.Nodup.of_map _ h).filter _)
  obtain ⟨ha, hao⟩ := mem_rowsOf.mp ha
  obtain ⟨hb, hbo⟩ := mem_rowsOf.mp hb
  exact List.inj_on_of_nodup_map h ha hb (Prod.ext (hao.trans hbo.symm) hab)

/-- **What a flush writes continues the chains**: the unique key leaves one
transaction for each order. -/
theorem Chained.flush (h : Chained orderOf sequence rows) (hw : Waiting orderOf sequence rows added)
    (hunique : ((rows ++ added).map fun row => (orderOf row.record, sequence row.record)).Nodup) :
    Chained orderOf sequence (rows ++ added) := by
  obtain ⟨parts, rfl, hparts⟩ := hw
  constructor
  · intro orderId
    have hflat := rowsOf_flatten (fun part hpart => (hparts part hpart).owned) orderId
    rw [rowsOf, List.filter_append]
    rw [rowsOf] at hflat
    refine chained_append.mpr ⟨h.linked orderId, ?_⟩
    rw [Nat.zero_add, hflat]
    refine chained_flatten (fun part hpart => ?_) ?_
    · obtain ⟨owner, howner, rfl⟩ := List.mem_map.mp hpart
      obtain ⟨hmem, hid⟩ := List.mem_filter.mp howner
      have hlinked := (hparts owner hmem).linked
      rw [beq_iff_eq.mp hid] at hlinked
      exact hlinked
    · rw [← hflat]
      rw [List.map_append, List.nodup_append] at hunique
      exact nodup_sequences hunique.2.1 orderId
  · intro row hrow
    obtain hrow | hrow := List.mem_append.mp hrow
    · exact h.hashed row hrow
    · obtain ⟨part, hpart, hrow⟩ := List.mem_flatten.mp hrow
      obtain ⟨owner, howner, rfl⟩ := List.mem_map.mp hpart
      exact (hparts owner howner).hashed row hrow

/-! ## How a chain grows -/

variable (orderOf sequence) in
/-- A growing chain is at the end of what it continues. -/
structure Grown (rows : List (Row ρ)) (orderId : UUID) (chain : Growing ρ) : Prop where
  continues : Continues orderOf sequence rows orderId chain.added
  sequence_eq : chain.sequence = (rowsOf orderOf orderId rows).length + chain.added.length
  hash_eq : chain.hash = lastHash (links sequence)
    (lastHash (links sequence) zeroHash (rowsOf orderOf orderId rows)) chain.added

theorem continues_nil : Continues orderOf sequence rows orderId [] :=
  ⟨fun _ hrow => absurd hrow List.not_mem_nil, trivial,
    fun _ hrow => absurd hrow List.not_mem_nil⟩

/-- The row with the largest number of a chain is its last. -/
theorem latest_concat {chain : List (Row ρ)} {row : Row ρ}
    (h : HashChain.Chained (links sequence) 0 zeroHash (chain ++ [row])) :
    latest sequence (chain ++ [row]) = some row := by
  have hsorted := List.pairwise_insertionSort
    (fun a b : Row ρ => sequence b.record ≤ sequence a.record) (chain ++ [row])
  have hmem : ∀ r, r ∈ (chain ++ [row]).insertionSort
      (fun a b : Row ρ => sequence b.record ≤ sequence a.record) ↔ r ∈ chain ++ [row] :=
    fun r => List.mem_insertionSort _
  rw [latest]
  cases hs : (chain ++ [row]).insertionSort
      (fun a b : Row ρ => sequence b.record ≤ sequence a.record) with
  | nil =>
    have hrow := (hmem row).mpr (by simp)
    rw [hs] at hrow
    exact absurd hrow List.not_mem_nil
  | cons m rest =>
    rw [hs] at hsorted hmem
    have hmax : ∀ t ∈ chain ++ [row], sequence t.record ≤ sequence m.record := by
      intro t ht
      obtain rfl | ht := List.mem_cons.mp ((hmem t).mpr ht)
      · exact le_rfl
      · exact (List.pairwise_cons.mp hsorted).1 t ht
    rw [List.head?_cons, h.eq_of_forall_le ((hmem m).mp List.mem_cons_self) hmax]

theorem added_start : (Growing.start sequence rows).added = [] := by
  unfold Growing.start
  split <;> rfl

/-- A chain starts growing at its last row. -/
theorem grown_start (h : Chained orderOf sequence rows) (orderId : UUID) :
    Grown orderOf sequence rows orderId (.start sequence (rowsOf orderOf orderId rows)) := by
  have hlinked := h.linked orderId
  generalize hchain : rowsOf orderOf orderId rows = chain at hlinked
  have hstart : (Growing.start sequence chain).sequence = chain.length ∧
      (Growing.start sequence chain).hash = lastHash (links sequence) zeroHash chain := by
    unfold Growing.start
    cases chain using List.reverseRecOn with
    | nil => exact ⟨rfl, rfl⟩
    | append_singleton chain row =>
      rw [latest_concat hlinked]
      constructor
      · have hr := (chained_concat.mp hlinked).2.1
        rw [List.length_append]
        simpa [links, Nat.zero_add] using hr
      · rw [lastHash_append]
        rfl
  refine ⟨added_start ▸ continues_nil, ?_, ?_⟩
  · rw [hstart.1, added_start, hchain]
    rfl
  · rw [hstart.2, added_start, hchain]
    rfl

/-- A record under the order, with the number it is given. -/
theorem Grown.append {chain : Growing ρ} (h : Grown orderOf sequence rows orderId chain)
    {record : ℕ → ρ} (howner : ∀ n, orderOf (record n) = orderId)
    (hnumber : ∀ n, sequence (record n) = n) :
    Grown orderOf sequence rows orderId (chain.append record) := by
  have hadded : (chain.append record).added =
      chain.added ++ [Row.seal (record (chain.sequence + 1)) chain.hash] := rfl
  refine ⟨⟨?_, ?_, ?_⟩, ?_, ?_⟩
  · intro row hrow
    rw [hadded] at hrow
    obtain hrow | hrow := List.mem_append.mp hrow
    · exact h.continues.owned row hrow
    · rw [List.mem_singleton.mp hrow]
      exact howner _
  · rw [hadded]
    refine chained_concat.mpr ⟨h.continues.linked, ?_, h.hash_eq⟩
    exact (hnumber _).trans (congrArg (· + 1) h.sequence_eq)
  · intro row hrow
    rw [hadded] at hrow
    obtain hrow | hrow := List.mem_append.mp hrow
    · exact h.continues.hashed row hrow
    · rw [List.mem_singleton.mp hrow]
      rfl
  · rw [hadded, List.length_append]
    exact congrArg (· + 1) h.sequence_eq
  · rw [hadded, lastHash_append]
    rfl

end

end RetailPrintGuard.Correlation.OrderChains

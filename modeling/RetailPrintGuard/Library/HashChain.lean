import Mathlib.Data.List.Basic
import Mathlib.Data.List.Range

/-! # Hash chains

Records with a number, the hash of the record before and a hash of their own. -/
namespace RetailPrintGuard.Library.HashChain
variable {ρ δ π : Type}

/-- Where a record keeps its place in the chain. -/
structure Links (ρ δ : Type) where
  sequence : ρ → Nat
  previous : ρ → δ
  hash : ρ → δ

variable (links : Links ρ δ)

/-- The records that follow a number and a hash. -/
def Chained : Nat → δ → List ρ → Prop
  | _, _, [] => True
  | n, d, r :: rest =>
    links.sequence r = n + 1 ∧ links.previous r = d ∧ Chained (n + 1) (links.hash r) rest

/-- The hash a chain ends with. -/
def lastHash : δ → List ρ → δ
  | d, [] => d
  | _, r :: rest => lastHash (links.hash r) rest

variable {links}

theorem lastHash_append {d : δ} {rs ts : List ρ} :
    lastHash links d (rs ++ ts) = lastHash links (lastHash links d rs) ts := by
  induction rs generalizing d with
  | nil => rfl
  | cons r rs ih => exact ih

theorem chained_append {n : Nat} {d : δ} {rs ts : List ρ} :
    Chained links n d (rs ++ ts) ↔
      Chained links n d rs ∧ Chained links (n + rs.length) (lastHash links d rs) ts := by
  induction rs generalizing n d with
  | nil => exact (and_iff_right trivial).symm
  | cons r rs ih =>
    have hlength : n + 1 + rs.length = n + (rs.length + 1) := by omega
    simp only [List.cons_append, Chained, lastHash, List.length_cons, ih, hlength, and_assoc]

theorem chained_concat {n : Nat} {d : δ} {rs : List ρ} {r : ρ} :
    Chained links n d (rs ++ [r]) ↔
      Chained links n d rs ∧ links.sequence r = n + rs.length + 1 ∧
        links.previous r = lastHash links d rs := by
  rw [chained_append]
  simp [Chained]

/-- The numbers of a chain are contiguous. -/
theorem Chained.sequences {n : Nat} {d : δ} {rs : List ρ} (h : Chained links n d rs) :
    rs.map links.sequence = List.range' (n + 1) rs.length := by
  induction rs generalizing n d with
  | nil => rfl
  | cons r rs ih => rw [List.map_cons, h.1, ih h.2.2, List.length_cons, List.range'_succ]

/-- The record with the largest number is the last. -/
theorem Chained.eq_of_forall_le {n : Nat} {d : δ} {rs : List ρ} {r m : ρ}
    (h : Chained links n d (rs ++ [r])) (hm : m ∈ rs ++ [r])
    (hmax : ∀ t ∈ rs ++ [r], links.sequence t ≤ links.sequence m) : m = r := by
  have hr := (chained_concat.mp h).2.1
  have hle := hmax r (List.mem_append_right _ (List.mem_singleton_self r))
  obtain hm | hm := List.mem_append.mp hm
  · have hrange : links.sequence m ∈ List.range' (n + 1) rs.length := by
      rw [← (chained_concat.mp h).1.sequences]
      exact List.mem_map_of_mem hm
    rw [List.mem_range'_1] at hrange
    omega
  · exact List.mem_singleton.mp hm

/-- Continuations of one chain: with distinct numbers, at most one has records. -/
theorem chained_flatten {n : Nat} {d : δ} {parts : List (List ρ)}
    (h : ∀ part ∈ parts, Chained links n d part)
    (hnodup : (parts.flatten.map links.sequence).Nodup) : Chained links n d parts.flatten := by
  induction parts with
  | nil => trivial
  | cons part parts ih =>
    rw [List.flatten_cons, List.map_append, List.nodup_append] at hnodup
    have hpart := h part List.mem_cons_self
    have hrest := ih (fun other ho => h other (List.mem_cons_of_mem _ ho)) hnodup.2.1
    rw [List.flatten_cons]
    cases part with
    | nil => exact hrest
    | cons r rs =>
      cases hflat : parts.flatten with
      | nil => rwa [List.append_nil]
      | cons t ts =>
        rw [hflat] at hrest hnodup
        exact absurd (hpart.1.trans hrest.1.symm)
          (hnodup.2.2 _ (List.mem_cons_self) _ (List.mem_cons_self))

/-- A hash says everything about its record: what it is of, its number and its
predecessor. -/
def Binding (links : Links ρ δ) (content : ρ → π) (P : ρ → Prop) : Prop :=
  ∀ r s, P r → P s → links.hash r = links.hash s →
    content r = content s ∧ links.sequence r = links.sequence s ∧
      links.previous r = links.previous s

/-- Chains that end with the same hash are the same, up to what is hashed. -/
theorem Chained.agree {content : ρ → π} {P : ρ → Prop} (hbinding : Binding links content P)
    {n : Nat} {d : δ} {rs ts : List ρ} (hrs : Chained links n d rs) (hts : Chained links n d ts)
    (hP : ∀ r ∈ rs ++ ts, P r)
    (hlast : rs.getLast?.map links.hash = ts.getLast?.map links.hash) :
    rs.map content = ts.map content := by
  induction rs using List.reverseRecOn generalizing ts with
  | nil =>
    cases ts using List.reverseRecOn with
    | nil => rfl
    | append_singleton ts t => simp at hlast
  | append_singleton rs r ih =>
    cases ts using List.reverseRecOn with
    | nil => simp at hlast
    | append_singleton ts t =>
      simp only [List.getLast?_append, List.getLast?_singleton, Option.some_or, Option.map_some,
        Option.some.injEq] at hlast
      obtain ⟨hcontent, hsequence, hprevious⟩ :=
        hbinding r t (hP r (by simp)) (hP t (by simp)) hlast
      obtain ⟨hrs, hr, hr'⟩ := chained_concat.mp hrs
      obtain ⟨hts, ht, ht'⟩ := chained_concat.mp hts
      have hlength : rs.length = ts.length := by omega
      have hlast : rs.getLast?.map links.hash = ts.getLast?.map links.hash := by
        rw [hr', ht'] at hprevious
        cases rs using List.reverseRecOn with
        | nil =>
          obtain rfl : ts = [] := List.length_eq_zero_iff.mp hlength.symm
          rfl
        | append_singleton rs r' =>
          cases ts using List.reverseRecOn with
          | nil => simp at hlength
          | append_singleton ts t' =>
            rw [lastHash_append, lastHash_append] at hprevious
            simpa [lastHash] using hprevious
      rw [List.map_append, List.map_append, ih hrs hts (fun r' hr' => hP r' ?_) hlast,
        List.map_singleton, List.map_singleton, hcontent]
      simp only [List.mem_append] at hr' ⊢
      tauto

/-! ## Chains without numbers -/

/-- Each record names the hash before it. -/
def Linked (links : Links ρ δ) : δ → List ρ → Prop
  | _, [] => True
  | d, r :: rest => links.previous r = d ∧ Linked links (links.hash r) rest

theorem linked_append {d : δ} {rs ts : List ρ} :
    Linked links d (rs ++ ts) ↔
      Linked links d rs ∧ Linked links (lastHash links d rs) ts := by
  induction rs generalizing d with
  | nil => exact (and_iff_right trivial).symm
  | cons r rs ih => simp only [List.cons_append, Linked, lastHash, ih, and_assoc]

theorem linked_concat {d : δ} {rs : List ρ} {r : ρ} :
    Linked links d (rs ++ [r]) ↔ Linked links d rs ∧ links.previous r = lastHash links d rs := by
  rw [linked_append]
  simp [Linked]

theorem lastHash_concat {d : δ} {rs : List ρ} {r : ρ} :
    lastHash links d (rs ++ [r]) = links.hash r := by
  rw [lastHash_append]
  rfl

/-- A hash tells its record, and none is the hash that chains start with. -/
structure Separated (links : Links ρ δ) (start : δ) (P : ρ → Prop) : Prop where
  injective : ∀ r s, P r → P s → links.hash r = links.hash s → r = s
  fresh : ∀ r, P r → links.hash r ≠ start

/-- Chains from the start that end with one hash are one chain. -/
theorem Linked.eq_of_lastHash {start : δ} {P : ρ → Prop} (hsep : Separated links start P)
    {rs ts : List ρ} (hrs : Linked links start rs) (hts : Linked links start ts)
    (hP : ∀ r ∈ rs ++ ts, P r) (hlast : lastHash links start rs = lastHash links start ts) :
    rs = ts := by
  induction rs using List.reverseRecOn generalizing ts with
  | nil =>
    cases ts using List.reverseRecOn with
    | nil => rfl
    | append_singleton ts t =>
      rw [lastHash_concat] at hlast
      exact absurd hlast.symm (hsep.fresh t (hP t (by simp)))
  | append_singleton rs r ih =>
    cases ts using List.reverseRecOn with
    | nil =>
      rw [lastHash_concat] at hlast
      exact absurd hlast (hsep.fresh r (hP r (by simp)))
    | append_singleton ts t =>
      rw [lastHash_concat, lastHash_concat] at hlast
      obtain rfl := hsep.injective r t (hP r (by simp)) (hP t (by simp)) hlast
      obtain ⟨hrs, hr⟩ := linked_concat.mp hrs
      obtain ⟨hts, ht⟩ := linked_concat.mp hts
      have hbefore : ∀ s ∈ rs ++ ts, P s := by
        intro s hs
        refine hP s ?_
        simp only [List.mem_append] at hs ⊢
        tauto
      rw [ih hrs hts hbefore (hr.symm.trans ht)]

/-- A chain that ends with a hash of another chain is a part of it. -/
theorem Linked.prefix_of_hash {start : δ} {P : ρ → Prop} (hsep : Separated links start P)
    {chain other : List ρ} (hchain : Linked links start chain)
    (hother : Linked links start other) (hP : ∀ r ∈ chain ++ other, P r)
    (hend : ∀ r ∈ other.getLast?, ∃ s ∈ chain, links.hash r = links.hash s) :
    other <+: chain := by
  cases other using List.reverseRecOn with
  | nil => exact List.nil_prefix
  | append_singleton rest r =>
    obtain ⟨s, hs, hhash⟩ := hend r (by simp)
    obtain ⟨before, after, rfl⟩ := List.append_of_mem hs
    have hpart : before ++ s :: after = (before ++ [s]) ++ after := by simp
    rw [hpart] at hchain hP ⊢
    have heq : rest ++ [r] = before ++ [s] := by
      refine hother.eq_of_lastHash hsep (linked_append.mp hchain).1 ?_ ?_
      · intro t ht
        refine hP t ?_
        simp only [List.mem_append] at ht ⊢
        tauto
      · rw [lastHash_concat, lastHash_concat, hhash]
    rw [heq]
    exact List.prefix_append _ _

end RetailPrintGuard.Library.HashChain

import Mathlib.Data.List.MinMax
import Mathlib.Order.Lattice

/-! # Findings owned through their least key

Parties hold disjoint sets of keys, and a finding has some keys as its ends. A
party sees the findings that have an end among its own keys, and it leads when
the least end of all the findings it sees is its own. Where a party sees one
finding only, leading is owning its least end, so the finding has one leader. -/
namespace RetailPrintGuard.Library.LeastOwner
variable {α κ : Type} [LinearOrder κ] (ends : α → List κ)

/-- An end of the finding is one of the party's own keys. -/
def Touches (own : List κ) (a : α) : Prop := ∃ k ∈ ends a, k ∈ own

/-- The least end of the findings the party sees is its own. -/
def Leads (findings : List α) (own : List κ) : Prop :=
  ∃ least ∈ own, (∃ a ∈ findings, Touches ends own a ∧ least ∈ ends a) ∧
    ∀ a ∈ findings, Touches ends own a → ∀ k ∈ ends a, least ≤ k

variable {ends} {findings : List α} {own : List κ} {a : α}

instance : Decidable (Touches ends own a) :=
  inferInstanceAs (Decidable (∃ k ∈ ends a, k ∈ own))

theorem any_contains_iff : (ends a).any own.contains = true ↔ Touches ends own a := by
  simp [Touches]

/-- Taking the least of all the ends in sight decides who leads. -/
theorem min_owned_iff :
    (((findings.filter fun a => (ends a).any own.contains).flatMap ends).min?.any own.contains) = true
      ↔ Leads ends findings own := by
  have hmem : ∀ k, k ∈ (findings.filter fun a => (ends a).any own.contains).flatMap ends ↔
      ∃ a ∈ findings, Touches ends own a ∧ k ∈ ends a := by
    intro k
    simp only [List.mem_flatMap, List.mem_filter, any_contains_iff, and_assoc]
  rw [Option.any_eq_true]
  constructor
  · rintro ⟨least, hleast, hown⟩
    rw [List.min?_eq_some_iff] at hleast
    refine ⟨least, by simpa using hown, (hmem least).mp hleast.1, ?_⟩
    intro a ha ht k hk
    exact hleast.2 k ((hmem k).mpr ⟨a, ha, ht, hk⟩)
  · rintro ⟨least, hown, hin, hle⟩
    refine ⟨least, ?_, by simpa using hown⟩
    rw [List.min?_eq_some_iff]
    refine ⟨(hmem least).mpr hin, ?_⟩
    intro k hk
    obtain ⟨b, hb, htb, hkb⟩ := (hmem k).mp hk
    exact hle b hb htb k hkb

/-- With one finding in sight, the owner of its least end leads. -/
theorem leads_of_sole (ha : a ∈ findings) (hsole : ∀ b ∈ findings, Touches ends own b → b = a) :
    Leads ends findings own ↔ ∃ least ∈ own, least ∈ ends a ∧ ∀ k ∈ ends a, least ≤ k := by
  constructor
  · rintro ⟨least, hown, ⟨b, hb, ht, hend⟩, hle⟩
    have hba : b = a := hsole b hb ht
    exact ⟨least, hown, hba ▸ hend, hba ▸ hle b hb ht⟩
  · rintro ⟨least, hown, hend, hle⟩
    refine ⟨least, hown, ⟨a, ha, ⟨least, hend, hown⟩, hend⟩, ?_⟩
    intro b hb ht
    rw [hsole b hb ht]
    exact hle

/-- Parties with disjoint keys: a finding whose touchers see nothing else, and
whose least end is owned, has one leader. -/
theorem existsUnique_leader_of_sole {ι : Type} {own : ι → List κ}
    (hdisjoint : ∀ i j, ∀ k ∈ own i, k ∈ own j → i = j) (ha : a ∈ findings)
    (hsole : ∀ i, Touches ends (own i) a → ∀ b ∈ findings, Touches ends (own i) b → b = a)
    (howned : ∃ i, ∃ least ∈ own i, least ∈ ends a ∧ ∀ k ∈ ends a, least ≤ k) :
    ∃! i, Touches ends (own i) a ∧ Leads ends findings (own i) := by
  obtain ⟨i, least, hown, hend, hle⟩ := howned
  have ht : Touches ends (own i) a := ⟨least, hend, hown⟩
  refine ⟨i, ⟨ht, (leads_of_sole ha (hsole i ht)).mpr ⟨least, hown, hend, hle⟩⟩, ?_⟩
  rintro j ⟨htj, hj⟩
  obtain ⟨other, hother, hend', hle'⟩ := (leads_of_sole ha (hsole j htj)).mp hj
  have heq : other = least := le_antisymm (hle' least hend) (hle other hend')
  exact hdisjoint j i other hother (heq ▸ hown)

end RetailPrintGuard.Library.LeastOwner

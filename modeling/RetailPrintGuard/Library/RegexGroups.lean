import RetailPrintGuard.Library.Regex

/-! # Groups that a match always has

A pattern keeps the groups captured before it. A group that stands on every way
through the pattern is captured by every match. -/
namespace RetailPrintGuard.Library.RegexGroups
open RetailPrintGuard.Library.Regex

/-- The group is captured on every way through the pattern. -/
def captures : Pattern → String → Bool
  | .seq r s, name => captures r name || captures s name
  | .alt r s, name => captures r name && captures s name
  | .group own r, name => own == name || captures r name
  | _, _ => false

variable {r : Pattern} {c c' : Cursor} {name : String} {g : String × List Char}

theorem mem_iterate {step : Cursor → List Cursor} {greedy : Bool} {fuel lo : Nat}
    (hstep : ∀ a, ∀ b ∈ step a, g ∈ a.groups → g ∈ b.groups)
    (h : c' ∈ iterate step greedy fuel lo c) (hg : g ∈ c.groups) : g ∈ c'.groups := by
  induction fuel generalizing lo c with
  | zero =>
    rw [iterate] at h
    split at h
    · rwa [List.mem_singleton.mp h]
    · cases h
  | succ fuel ih =>
    have hmore : c' ∈ (step c).flatMap (iterate step greedy fuel (lo - 1)) → g ∈ c'.groups := by
      intro hm
      obtain ⟨b, hb, hrest⟩ := List.mem_flatMap.mp hm
      exact ih hrest (hstep c b hb hg)
    rw [iterate] at h
    split at h
    · split at h
      · rcases List.mem_append.mp h with h | h
        · exact hmore h
        · rwa [List.mem_singleton.mp h]
      · rcases List.mem_cons.mp h with rfl | h
        · exact hg
        · exact hmore h
    · exact hmore h

/-- What is captured stays captured. -/
theorem mem_run (h : c' ∈ run r c) (hg : g ∈ c.groups) : g ∈ c'.groups := by
  induction r generalizing c c' with
  | char p =>
    rw [run] at h
    split at h
    · cases h
    · split at h
      · rw [List.mem_singleton.mp h]
        exact hg
      · cases h
  | empty => rwa [List.mem_singleton.mp h]
  | seq r s ihr ihs =>
    obtain ⟨b, hb, hrest⟩ := List.mem_flatMap.mp h
    exact ihs hrest (ihr hb hg)
  | alt r s ihr ihs =>
    rcases List.mem_append.mp h with h | h
    · exact ihr h hg
    · exact ihs h hg
  | rep greedy lo hi r ih => exact mem_iterate (fun a b hb hga => ih hb hga) h hg
  | group own r ih =>
    obtain ⟨b, hb, rfl⟩ := List.mem_map.mp h
    exact List.mem_cons_of_mem _ (ih hb hg)
  | assert p =>
    rw [run] at h
    split at h
    · rwa [List.mem_singleton.mp h]
    · cases h
  | look r ih =>
    rw [run] at h
    split at h
    · cases h
    · rwa [List.mem_singleton.mp h]

theorem captured_run (h : c' ∈ run r c) (hname : captures r name = true) :
    ∃ t, (name, t) ∈ c'.groups := by
  induction r generalizing c c' with
  | seq r s ihr ihs =>
    obtain ⟨b, hb, hrest⟩ := List.mem_flatMap.mp h
    rcases Bool.or_eq_true_iff.mp hname with hleft | hright
    · obtain ⟨t, ht⟩ := ihr hb hleft
      exact ⟨t, mem_run hrest ht⟩
    · exact ihs hrest hright
  | alt r s ihr ihs =>
    obtain ⟨hleft, hright⟩ := Bool.and_eq_true_iff.mp hname
    rcases List.mem_append.mp h with h | h
    · exact ihr h hleft
    · exact ihs h hright
  | group own r ih =>
    obtain ⟨b, hb, rfl⟩ := List.mem_map.mp h
    rcases Bool.or_eq_true_iff.mp hname with hown | hinner
    · exact ⟨between c b, by rw [← beq_iff_eq.mp hown]; exact List.mem_cons_self⟩
    · obtain ⟨t, ht⟩ := ih hb hinner
      exact ⟨t, List.mem_cons_of_mem _ ht⟩
  | char p | empty | rep greedy lo hi r ih | assert p | look r ih => cases hname

theorem lookup_of_mem {groups : List (String × List Char)} {t : List Char}
    (h : (name, t) ∈ groups) : ∃ t', groups.lookup name = some t' := by
  induction groups with
  | nil => cases h
  | cons first groups ih =>
    rw [List.lookup_cons]
    split
    · exact ⟨first.2, rfl⟩
    · next hne =>
      rcases List.mem_cons.mp h with rfl | h
      · simp at hne
      · exact ih h

variable {text before after : List Char} {m : Match}

theorem captured_matchAt (h : matchAt r before after = some m) (hname : captures r name = true) :
    ∃ t, m.group name = some t := by
  obtain ⟨c', hc, rfl⟩ := Option.map_eq_some_iff.mp h
  obtain ⟨t, ht⟩ := captured_run (List.mem_of_mem_head? hc) hname
  exact lookup_of_mem ht

theorem captured_searchFrom (h : searchFrom r before after = some m)
    (hname : captures r name = true) : ∃ t, m.group name = some t := by
  induction after generalizing before with
  | nil => exact captured_matchAt h hname
  | cons x rest ih =>
    rw [searchFrom] at h
    split at h
    · next found hfound =>
      rw [← Option.some.inj h]
      exact captured_matchAt hfound hname
    · exact ih h

/-- Every match of a search has the group. -/
theorem captured_finditer (h : m ∈ finditer r text) (hname : captures r name = true) :
    ∃ t, m.group name = some t := by
  have hall : ∀ (fuel : Nat) (before after : List Char), m ∈ findFrom r fuel before after →
      ∃ t, m.group name = some t := by
    intro fuel
    induction fuel with
    | zero => exact fun _ _ h => absurd h List.not_mem_nil
    | succ fuel ih =>
      intro before after h
      rw [findFrom] at h
      split at h
      · cases h
      · next first hfirst =>
        rcases List.mem_cons.mp h with rfl | h
        · exact captured_searchFrom hfirst hname
        · exact ih _ _ h
  exact hall _ [] text h

end RetailPrintGuard.Library.RegexGroups

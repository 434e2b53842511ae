import RetailPrintGuard.Library.Regex

/-! # Substitution of matches

Patterns of characters, repeated or in sequence, find every text of theirs; so a
text without a match is one without a part of this kind. -/
namespace RetailPrintGuard.Library.Substitution
open RetailPrintGuard.Library.Regex

variable {r : Pattern} {replace : Match → List Char}

/-! ## Matches that are found -/

/-- Nothing but characters is repeated, and nothing is asked of the text around. -/
def plain : Pattern → Bool
  | .char _ | .empty => true
  | .seq r s | .alt r s => plain r && plain s
  | .rep _ _ none (.char _) => true
  | .group _ r => plain r
  | _ => false

theorem iterate_complete {p : Char → Bool} {greedy : Bool} {t rest : List Char} {fuel lo : Nat}
    {c : Cursor} (hp : ∀ x ∈ t, p x = true) (hlo : lo ≤ t.length) (hfuel : t.length ≤ fuel)
    (hc : c.after = t ++ rest) :
    ∃ c' ∈ iterate (run (.char p)) greedy fuel lo c, c'.after = rest := by
  induction t generalizing fuel lo c with
  | nil =>
    obtain rfl : lo = 0 := Nat.le_zero.mp hlo
    refine ⟨c, ?_, hc⟩
    cases fuel <;> cases greedy <;> simp [iterate]
  | cons x t ih =>
    obtain ⟨fuel, rfl⟩ : ∃ n, fuel = n + 1 := Nat.exists_eq_succ_of_ne_zero (by
      rw [List.length_cons] at hfuel
      omega)
    rw [List.forall_mem_cons] at hp
    rw [List.length_cons] at hlo hfuel
    have hstep : run (.char p) c = [{ c with before := x :: c.before, after := t ++ rest }] := by
      rw [run, hc]
      exact if_pos hp.1
    let next : Cursor := { c with before := x :: c.before, after := t ++ rest }
    obtain ⟨c', hmem, hafter⟩ := @ih fuel (lo - 1) next hp.2 (by omega) (by omega) rfl
    refine ⟨c', ?_, hafter⟩
    rw [iterate, hstep, List.flatMap_singleton]
    split
    · split
      · exact List.mem_append_left _ hmem
      · exact List.mem_cons_of_mem _ hmem
    · exact hmem

/-- Where a text of the pattern lies ahead, there is a way to match it. -/
theorem run_complete (hr : plain r = true) {t rest : List Char} (h : Lang r t) {c : Cursor}
    (hc : c.after = t ++ rest) : ∃ c' ∈ run r c, c'.after = rest := by
  induction r generalizing t rest c with
  | char p =>
    obtain ⟨x, rfl, hp⟩ := h
    refine ⟨{ c with before := x :: c.before, after := rest }, ?_, rfl⟩
    simp [run, hc, hp]
  | empty =>
    subst h
    exact ⟨c, List.mem_singleton_self c, hc⟩
  | seq r s ihr ihs =>
    rw [plain, Bool.and_eq_true] at hr
    obtain ⟨t₁, t₂, rfl, h₁, h₂⟩ := h
    obtain ⟨b, hb, hafter⟩ := ihr hr.1 h₁ (hc.trans (List.append_assoc _ _ _))
    obtain ⟨c', hc', hrest⟩ := ihs hr.2 h₂ hafter
    exact ⟨c', List.mem_flatMap.mpr ⟨b, hb, hc'⟩, hrest⟩
  | alt r s ihr ihs =>
    rw [plain, Bool.and_eq_true] at hr
    rcases h with h | h
    · obtain ⟨c', hc', hrest⟩ := ihr hr.1 h hc
      exact ⟨c', List.mem_append_left _ hc', hrest⟩
    · obtain ⟨c', hc', hrest⟩ := ihs hr.2 h hc
      exact ⟨c', List.mem_append_right _ hc', hrest⟩
  | rep greedy lo hi r ih =>
    cases hi with
    | some hi => cases hr
    | none =>
      cases r with
      | char p =>
        obtain ⟨hlo, hp⟩ := chars_of_lang h
        refine iterate_complete hp hlo ?_ hc
        rw [Option.getD_none, hc, List.length_append]
        exact Nat.le_add_right _ _
      | _ => cases hr
  | group name r ih =>
    obtain ⟨c', hc', hrest⟩ := ih hr h hc
    exact ⟨_, List.mem_map_of_mem hc', hrest⟩
  | assert p => cases hr
  | look r => cases hr

theorem matchAt_isSome (hr : plain r = true) {before t rest : List Char} (h : Lang r t) :
    (matchAt r before (t ++ rest)).isSome = true := by
  obtain ⟨c', hc', -⟩ := @run_complete r hr t rest h { before, after := t ++ rest } rfl
  rw [matchAt, Option.isSome_map, List.isSome_head?]
  exact List.ne_nil_of_mem hc'

theorem searchFrom_eq_none {before after : List Char} : searchFrom r before after = none ↔
    ∀ lead rest, after = lead ++ rest → matchAt r (lead.reverse ++ before) rest = none := by
  induction after generalizing before with
  | nil =>
    rw [searchFrom]
    constructor
    · intro h lead rest hsplit
      obtain ⟨rfl, rfl⟩ := List.append_eq_nil_iff.mp hsplit.symm
      exact h
    · exact fun h => h [] [] rfl
  | cons x after ih =>
    rw [searchFrom]
    constructor
    · intro h lead rest hsplit
      cases hx : matchAt r before (x :: after) with
      | some m =>
        rw [hx] at h
        cases h
      | none =>
        rw [hx] at h
        cases lead with
        | nil =>
          rw [← show x :: after = rest from hsplit]
          exact hx
        | cons y lead =>
          obtain ⟨rfl, hrest⟩ := List.cons.inj hsplit
          rw [List.reverse_cons, List.append_assoc]
          exact ih.mp h lead rest hrest
    · intro h
      rw [show matchAt r before (x :: after) = none from h [] _ rfl]
      refine ih.mpr fun lead rest hsplit => ?_
      have hnext := h (x :: lead) rest (by rw [hsplit, List.cons_append])
      rwa [List.reverse_cons, List.append_assoc] at hnext

/-- A text without a match has no text of the pattern in it, and the other way round. -/
theorem search_eq_none (hr : plain r = true) {text : List Char} :
    search r text = none ↔ ∀ t, Lang r t → ¬t <:+: text := by
  constructor
  · rintro h t ht ⟨lead, rest, rfl⟩
    have hnone := searchFrom_eq_none.mp h lead (t ++ rest) (by rw [List.append_assoc])
    have hsome := @matchAt_isSome r hr (lead.reverse ++ []) t rest ht
    rw [hnone] at hsome
    cases hsome
  · intro h
    cases hfound : search r text with
    | none => rfl
    | some m =>
      obtain ⟨hsound, htext⟩ := search_sound hfound
      exact absurd ⟨m.lead, m.rest, htext.symm⟩ (h m.text hsound.lang)

/-! ## The shortest capture -/

section
variable {s : Pattern} {p : Char → Bool} {c c' : Cursor} {f : Cursor → List Cursor}

/-- Of a sequence the second part is tried behind every way to match the first. -/
theorem head_seq (h : (run (.seq r s) c).head? = some c') :
    ∃ b ∈ run r c, (run s b).head? = some c' := by
  rw [run, List.head?_flatMap] at h
  obtain ⟨b, hb, hrun⟩ := List.exists_of_findSome?_eq_some h
  exact ⟨b, hb, hrun⟩

/-- The cursor behind a text that lies ahead. -/
def skip (c : Cursor) (t : List Char) : Cursor :=
  { c with before := t.reverse ++ c.before, after := c.after.drop t.length }

/-- As few characters are repeated as let the rest match. -/
theorem head_lazy {fuel : Nat}
    (h : ((iterate (run (.char p)) false fuel 0 c).flatMap f).head? = some c') :
    ∃ t, t <+: c.after ∧ (f (skip c t)).head? = some c' ∧
      ∀ u v, t = u ++ v → v ≠ [] → f (skip c u) = [] := by
  induction fuel generalizing c with
  | zero =>
    refine ⟨[], List.nil_prefix, by simpa [iterate, skip] using h, fun u v ht hv => ?_⟩
    exact absurd (List.append_eq_nil_iff.mp ht.symm).2 hv
  | succ fuel ih =>
    rw [iterate, if_pos rfl, if_neg Bool.false_ne_true, List.flatMap_cons] at h
    cases hf : f c with
    | cons b bs =>
      refine ⟨[], List.nil_prefix, by simpa [hf, skip] using h, fun u v ht hv => ?_⟩
      exact absurd (List.append_eq_nil_iff.mp ht.symm).2 hv
    | nil =>
      rw [hf, List.nil_append, run] at h
      cases hafter : c.after with
      | nil => simp [hafter] at h
      | cons x rest =>
        rw [hafter] at h
        dsimp only at h
        split at h
        · rw [List.flatMap_singleton] at h
          obtain ⟨t, hprefix, hhead, hshort⟩ := ih h
          have hskip : ∀ u, skip { c with before := x :: c.before, after := rest } u =
              skip c (x :: u) := fun u => by simp [skip, hafter]
          refine ⟨x :: t, List.cons_prefix_cons.mpr ⟨rfl, hprefix⟩, hskip t ▸ hhead, fun u v ht hv => ?_⟩
          cases u with
          | nil => simpa [skip] using hf
          | cons y u =>
            obtain ⟨rfl, htail⟩ := List.cons.inj ht
            exact hskip u ▸ hshort u v htail hv
        · simp at h

/-- The first match of a lazy capture and what follows: the capture ends at the
first place that what follows can start at. -/
theorem head_capture {name : String} (hs : plain s = true)
    (h : (run (.seq (.group name (.rep false 0 none (.char p))) s) c).head? = some c') :
    ∃ t u, c.after = t ++ (u ++ c'.after) ∧ Lang s u ∧
      (∀ g ∈ c'.groups, g = (name, t) ∨ g ∈ c.groups ∨ Captures s g.1 g.2) ∧
      ∀ v w, t = v ++ w → w ≠ [] → ∀ u', Lang s u' → ¬u' <+: w ++ (u ++ c'.after) := by
  rw [run, run, List.flatMap_map] at h
  obtain ⟨t, ⟨rest, hrest⟩, hhead, hshort⟩ := head_lazy h
  have hafter : ∀ v w, t = v ++ w → (skip c v).after = w ++ rest := by
    rintro v w rfl
    simp [skip, ← hrest]
  have hbetween : between c (skip c t) = t :=
    between_eq (by rw [hafter t [] (List.append_nil t).symm, List.nil_append, hrest])
  obtain ⟨u, hadvances, hlang⟩ := run_sound s (List.mem_of_mem_head? hhead)
  have hu : rest = u ++ c'.after := by
    simpa [hafter t [] (List.append_nil t).symm] using hadvances.after
  refine ⟨t, u, by rw [← hrest, hu], hlang, fun g hg => ?_, fun v w ht hw u' hu' hprefix => ?_⟩
  · obtain hg | hg := hadvances.groups g hg
    · obtain rfl | hg := List.mem_cons.mp hg
      · exact Or.inl (by rw [hbetween])
      · exact Or.inr (Or.inl hg)
    · exact Or.inr (Or.inr hg.1)
  · -- what follows can start earlier
    obtain ⟨ending, hending⟩ := hprefix
    obtain ⟨b, hb, -⟩ := @run_complete s hs u' ending hu'
      { skip c v with groups := (name, between c (skip c v)) :: (skip c v).groups }
      (by rw [hending, ← hu]; exact hafter v w ht)
    rw [hshort v w ht hw] at hb
    exact absurd hb List.not_mem_nil

end

/-! ## Substitution -/

def subFrom (r : Pattern) (replace : Match → List Char) : Nat → List Char → List Char → List Char
  | 0, _, after => after
  | _ + 1, _, [] => []
  | fuel + 1, before, x :: rest =>
    match matchAt r before (x :: rest) with
    | some m => replace m ++ subFrom r replace fuel (m.text.reverse ++ before) m.rest
    | none => x :: subFrom r replace fuel (x :: before) rest

/-- `pattern.sub(replace, text)`, for a pattern that never matches the empty text. -/
def sub (r : Pattern) (replace : Match → List Char) (text : List Char) : List Char :=
  subFrom r replace text.length [] text

theorem subFrom_of_none {fuel : Nat} {before after : List Char}
    (h : searchFrom r before after = none) : subFrom r replace fuel before after = after := by
  induction fuel generalizing before after with
  | zero => rfl
  | succ fuel ih =>
    cases after with
    | nil => rfl
    | cons x rest =>
      have hx := searchFrom_eq_none.mp h [] (x :: rest) rfl
      rw [searchFrom, show matchAt r before (x :: rest) = none from hx] at h
      rw [subFrom, show matchAt r before (x :: rest) = none from hx]
      exact congrArg (List.cons x) (ih h)

/-- Where nothing matches, nothing is replaced. -/
theorem sub_of_none {text : List Char} (h : search r text = none) : sub r replace text = text :=
  subFrom_of_none h

theorem mem_subFrom (hreplace : ∀ m, m.Sound r → ∀ x ∈ replace m, x ∈ m.text) {fuel : Nat}
    {before after : List Char} {x : Char} (h : x ∈ subFrom r replace fuel before after) :
    x ∈ after := by
  induction fuel generalizing before after with
  | zero => exact h
  | succ fuel ih =>
    cases after with
    | nil => exact h
    | cons y rest =>
      rw [subFrom] at h
      split at h
      · next m hm =>
        obtain ⟨hsound, htext, -⟩ := matchAt_sound hm
        rw [htext]
        rcases List.mem_append.mp h with h | h
        · exact List.mem_append_left _ (hreplace m hsound x h)
        · exact List.mem_append_right _ (ih h)
      · rcases List.mem_cons.mp h with rfl | h
        · exact List.mem_cons_self
        · exact List.mem_cons_of_mem _ (ih h)

/-- Behind a first part without groups, a capture is a part of what follows. -/
theorem matchAt_seq {s : Pattern} (hr : ∀ name v, ¬Captures r name v) {before after : List Char}
    {m : Match} (h : matchAt (.seq r s) before after = some m) :
    ∃ t u, m.text = t ++ u ∧ Lang r t ∧ ∀ g ∈ m.groups, g.2 <:+: u := by
  obtain ⟨c', hc', rfl⟩ := Option.map_eq_some_iff.mp h
  obtain ⟨b, hb, hrest⟩ := List.mem_flatMap.mp (List.mem_of_mem_head? hc')
  obtain ⟨t, hadv, hlang⟩ := run_sound r hb
  obtain ⟨u, hadv', -⟩ := run_sound s hrest
  refine ⟨t, u, between_eq ?_, hlang, fun g hg => ?_⟩
  · rw [hadv.after, hadv'.after, List.append_assoc]
  · rcases hadv'.groups g hg with hg | hg
    · rcases hadv.groups g hg with hg | hg
      · exact absurd hg List.not_mem_nil
      · exact absurd hg.1 (hr _ _)
    · exact hg.2

section Shrinking
variable (hreplace : ∀ before after m, matchAt r before after = some m →
  (replace m).length < m.text.length)
include hreplace

theorem matchAt_nil {before : List Char} : matchAt r before [] = none := by
  cases hm : matchAt r before [] with
  | none => rfl
  | some m =>
    have htext := (List.append_eq_nil_iff.mp (matchAt_sound hm).2.1.symm).1
    exact absurd (hreplace _ _ m hm) (by simp [htext])

theorem length_subFrom_le {fuel : Nat} {before after : List Char} :
    (subFrom r replace fuel before after).length ≤ after.length := by
  induction fuel generalizing before after with
  | zero => exact Nat.le_refl _
  | succ fuel ih =>
    cases after with
    | nil => exact Nat.le_refl _
    | cons y rest =>
      rw [subFrom]
      split
      · next m hm =>
        obtain ⟨-, htext, -⟩ := matchAt_sound hm
        rw [htext, List.length_append, List.length_append]
        exact Nat.add_le_add (hreplace _ _ m hm).le ih
      · exact Nat.succ_le_succ ih

theorem length_subFrom_lt {fuel : Nat} {before after : List Char} (hfuel : after.length ≤ fuel)
    (h : searchFrom r before after ≠ none) :
    (subFrom r replace fuel before after).length < after.length := by
  induction fuel generalizing before after with
  | zero =>
    obtain rfl := List.eq_nil_of_length_eq_zero (Nat.le_zero.mp hfuel)
    exact absurd (matchAt_nil hreplace) h
  | succ fuel ih =>
    cases after with
    | nil => exact absurd (matchAt_nil hreplace) h
    | cons y rest =>
      rw [subFrom]
      split
      · next m hm =>
        obtain ⟨-, htext, -⟩ := matchAt_sound hm
        rw [htext, List.length_append, List.length_append]
        exact Nat.add_lt_add_of_lt_of_le (hreplace _ _ m hm) (length_subFrom_le hreplace)
      · next hm =>
        rw [searchFrom, hm] at h
        exact Nat.succ_lt_succ (ih (Nat.le_of_succ_le_succ hfuel) h)

/-- Where something matches, the text gets shorter. -/
theorem length_sub_lt {text : List Char} (h : search r text ≠ none) :
    (sub r replace text).length < text.length :=
  length_subFrom_lt hreplace (Nat.le_refl _) h

end Shrinking

end RetailPrintGuard.Library.Substitution

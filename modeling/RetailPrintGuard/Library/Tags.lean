import Mathlib.Data.List.Basic
import Mathlib.Data.List.Infix

/-! # Tags that are erased from a text

A tag is what stands between an opening and a closing mark. Where tags and single
characters are erased from a text whose opening marks all open a solid tag or
none, no other tag comes together. -/
namespace RetailPrintGuard.Library.Tags

/-- The marks of a tag, the characters that are dropped, and those that no tag
begins with. -/
structure Marks (α : Type) where
  opening : α
  closing : α
  dropped : α → Bool
  inert : α → Bool
  closing_kept : closing ≠ opening ∧ dropped closing = false
  inert_kept : ∀ x, inert x = true → x ≠ closing ∧ x ≠ opening ∧ dropped x = false

variable {α : Type} {m : Marks α}
variable {s t body behind : List α} {K : List α → Prop}

/-- No mark opens in the text, and nothing of it is dropped. -/
def Marks.Solid (m : Marks α) (text : List α) : Prop :=
  ∀ x ∈ text, x ≠ m.opening ∧ m.dropped x = false

/-- The text begins with a character that no tag begins with. -/
def Marks.begins (m : Marks α) (text : List α) : Bool := text.head?.any m.inert

/-! ## Clear texts -/

/-- Every opening mark that could open a tag opens a solid one, or none. -/
def Marks.Clear (m : Marks α) (text : List α) : Prop :=
  ∀ before body behind, text = before ++ m.opening :: (body ++ m.closing :: behind) →
    m.closing ∉ body → m.Solid body ∨ m.begins body = true

theorem Marks.Clear.part (h : m.Clear t) (hpart : s <:+: t) : m.Clear s := by
  obtain ⟨u, v, rfl⟩ := hpart
  rintro before body behind rfl hbody
  exact h (u ++ before) body (behind ++ v) (by simp) hbody

theorem Marks.Clear.tail {x : α} (h : m.Clear (x :: s)) : m.Clear s :=
  h.part (List.suffix_cons x s).isInfix

/-- A text is cut at the first of its marks in one way. -/
theorem first_unique {c : α} {u v s t : List α} (hu : c ∉ u) (hv : c ∉ v)
    (h : u ++ c :: s = v ++ c :: t) : u = v ∧ s = t := by
  induction u generalizing v with
  | nil =>
    cases v with
    | nil => exact ⟨rfl, (List.cons.inj h).2⟩
    | cons y v => exact absurd ((List.cons.inj h).1 ▸ List.mem_cons_self) hv
  | cons x u ih =>
    cases v with
    | nil => exact absurd ((List.cons.inj h).1 ▸ List.mem_cons_self) hu
    | cons y v =>
      obtain ⟨rfl, htail⟩ := List.cons.inj h
      obtain ⟨rfl, rfl⟩ := ih (fun hc => hu (List.mem_cons_of_mem _ hc))
        (fun hc => hv (List.mem_cons_of_mem _ hc)) htail
      exact ⟨rfl, rfl⟩

theorem begins_body (h : m.begins (body ++ m.closing :: behind) = true) : m.begins body = true := by
  cases body with
  | nil => exact absurd rfl (m.inert_kept m.closing h).1
  | cons x body => exact h

section
variable [DecidableEq α]

instance (text : List α) : Decidable (m.Solid text) :=
  inferInstanceAs (Decidable (∀ x ∈ text, x ≠ m.opening ∧ m.dropped x = false))

/-- The text opens with a solid tag, or with none. -/
def Marks.clearAt (m : Marks α) : List α → Bool
  | [] => true
  | x :: rest => x ≠ m.opening || m.closing ∉ rest ||
      m.Solid (rest.takeWhile (· ≠ m.closing)) || m.begins rest

/-- `Clear`, place by place. -/
def Marks.clear (m : Marks α) (text : List α) : Bool := text.tails.all m.clearAt

theorem takeWhile_body (h : m.closing ∉ body) :
    (body ++ m.closing :: behind).takeWhile (· ≠ m.closing) = body := by
  have hother : ∀ x ∈ body, decide (x ≠ m.closing) = true := by
    rintro x hx
    exact decide_eq_true fun heq => h (heq ▸ hx)
  rw [List.takeWhile_append_of_pos hother, List.takeWhile_cons_of_neg (by simp), List.append_nil]

theorem clear_of_clear {text : List α} (h : m.clear text = true) : m.Clear text := by
  rintro before body behind rfl hbody
  have hat := List.all_eq_true.mp h _ ((List.mem_tails _ _).mpr (List.suffix_append before _))
  simp only [Marks.clearAt, takeWhile_body hbody, Bool.or_eq_true, decide_eq_true_eq] at hat
  obtain ((hopening | hclosing) | hsolid) | hbegins := hat
  · exact absurd rfl hopening
  · exact absurd (List.mem_append_right _ List.mem_cons_self) hclosing
  · exact Or.inl hsolid
  · exact Or.inr (begins_body hbegins)

end

/-! ## Erasing -/

/-- The second text is the first one without some tags and dropped characters;
what is kept has the property, together with all that follows it. -/
inductive Erased (m : Marks α) (K : List α → Prop) : List α → List α → Prop
  | nil : Erased m K [] []
  | keep {s t : List α} (x : α) (hkept : K (x :: s)) (h : Erased m K s t) : Erased m K (x :: s) (x :: t)
  | tag {s t body : List α} (hbody : m.closing ∉ body) (h : Erased m K s t) :
      Erased m K (m.opening :: (body ++ m.closing :: s)) t
  | drop {s t : List α} {x : α} (hx : m.dropped x = true) (h : Erased m K s t) : Erased m K (x :: s) t

theorem tag_suffix (s body : List α) : s <:+ m.opening :: (body ++ m.closing :: s) :=
  ((List.suffix_cons m.closing s).trans (List.suffix_append body _)).trans (List.suffix_cons m.opening _)

theorem Erased.sublist (h : Erased m K s t) : t.Sublist s := by
  induction h with
  | nil => exact .refl _
  | keep x _ _ ih => exact ih.cons_cons x
  | @tag s t body _ _ ih => exact ih.trans (tag_suffix s body).sublist
  | drop _ _ ih => exact ih.cons _

/-- A part that is kept as a whole. -/
theorem Erased.keeps {part : List α} (hkept : ∀ u v, part = u ++ v → v ≠ [] → K (v ++ s))
    (h : Erased m K s t) : Erased m K (part ++ s) (part ++ t) := by
  induction part with
  | nil => exact h
  | cons x part ih =>
    refine .keep x (hkept [] (x :: part) rfl (List.cons_ne_nil x part)) (ih fun u v hsplit => ?_)
    exact hkept (x :: u) v (by rw [hsplit, List.cons_append])

/-- What is solid is kept. -/
theorem Erased.solid (hbody : m.Solid body) (h : Erased m K (body ++ s) t) :
    ∃ t', t = body ++ t' ∧ Erased m K s t' := by
  induction body generalizing t with
  | nil => exact ⟨t, rfl, h⟩
  | cons x body ih =>
    generalize hs : x :: body ++ s = whole at h
    have hx := hbody x List.mem_cons_self
    cases h with
    | nil => cases hs
    | keep y hkept h =>
      obtain ⟨rfl, rfl⟩ := List.cons.inj hs
      obtain ⟨t', rfl, ht'⟩ := ih (fun z hz => hbody z (List.mem_cons_of_mem _ hz)) h
      exact ⟨t', rfl, ht'⟩
    | tag hclosing h => exact absurd (List.cons.inj hs).1 hx.1
    | drop hdropped h =>
      rw [← (List.cons.inj hs).1, hx.2] at hdropped
      cases hdropped

/-- A tag that is left was there, with what is left of the text behind it; or it
begins with a character that no tag begins with. -/
theorem Erased.trace (hs : m.Clear s) (h : Erased m K s t) {before : List α}
    (ht : t = before ++ m.opening :: (body ++ m.closing :: behind)) (hbody : m.closing ∉ body) :
    m.begins body = true ∨ ∃ before' behind',
      s = before' ++ m.opening :: (body ++ m.closing :: behind') ∧ m.Solid body ∧
        K (m.opening :: (body ++ m.closing :: behind')) ∧ Erased m K behind' behind := by
  induction h generalizing before with
  | nil => simp at ht
  | @keep s t x hkept h ih =>
    cases before with
    | cons y before =>
      obtain ⟨rfl, rfl⟩ := List.cons.inj ht
      refine (ih hs.tail rfl).imp id fun hfound => ?_
      obtain ⟨before', behind', rfl, hrest⟩ := hfound
      exact ⟨x :: before', behind', rfl, hrest⟩
    | nil =>
      obtain ⟨rfl, rfl⟩ := List.cons.inj ht
      have hclosing : m.closing ∈ s :=
        h.sublist.subset (List.mem_append_right _ List.mem_cons_self)
      obtain ⟨first, rest, rfl, hfirst⟩ := List.eq_append_cons_of_mem hclosing
      obtain hsolid | hbegins := hs [] first rest rfl hfirst
      · -- the whole tag is kept, so it is the one that is left
        have hwhole : m.Solid (first ++ [m.closing]) := by
          intro x hx
          obtain hx | hx := List.mem_append.mp hx
          · exact hsolid x hx
          · exact List.mem_singleton.mp hx ▸ m.closing_kept
        obtain ⟨left, hleft, hrest⟩ := Erased.solid hwhole (by simpa using h)
        rw [List.append_assoc, List.singleton_append] at hleft
        obtain ⟨rfl, rfl⟩ := first_unique hbody hfirst hleft
        exact Or.inr ⟨[], rest, rfl, hsolid, hkept, hrest⟩
      · cases first with
        | nil => cases hbegins
        | cons x first =>
          have hinert := m.inert_kept x hbegins
          have hsolid : m.Solid [x] := fun y hy => (List.mem_singleton.mp hy).symm ▸ hinert.2
          obtain ⟨left, hleft, -⟩ := Erased.solid hsolid h
          cases body with
          | nil => exact absurd (List.cons.inj hleft).1.symm hinert.1
          | cons y body =>
            obtain ⟨rfl, -⟩ := List.cons.inj hleft
            exact Or.inl hbegins
  | @tag s t first hfirst h ih =>
    refine (ih (hs.part (tag_suffix s first).isInfix) ht).imp id fun hfound => ?_
    obtain ⟨before', behind', rfl, hrest⟩ := hfound
    exact ⟨m.opening :: (first ++ m.closing :: before'), behind', by simp, hrest⟩
  | @drop s t x hx h ih =>
    refine (ih hs.tail ht).imp id fun hfound => ?_
    obtain ⟨before', behind', rfl, hrest⟩ := hfound
    exact ⟨x :: before', behind', rfl, hrest⟩

end RetailPrintGuard.Library.Tags

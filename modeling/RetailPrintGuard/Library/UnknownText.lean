import Mathlib.Data.List.Forall2
import RetailPrintGuard.Library.Substitution

/-! # Texts with unknown characters

A text with holes is matched twice, once as if a hole were any character a
pattern asks for and once as if it were none that some other filling is not.
Where both readings match alike, so does every filling, and a substitution can
be made without knowing it. -/
namespace RetailPrintGuard.Library.UnknownText
open RetailPrintGuard.Library.Regex RetailPrintGuard.Library.Substitution

/-! ## Parts of a list, up to a relation -/

section Sublists
open List
variable {α β γ δ : Type} {R : α → β → Prop} {S : γ → δ → Prop} {l₁ l₁' : List α} {l₂ l₂' : List β}

theorem sublistForall₂_prepend (h : SublistForall₂ R l₁ l₂) : SublistForall₂ R l₁ (l₂' ++ l₂) := by
  induction l₂' with
  | nil => exact h
  | cons b l₂' ih => exact .cons_right ih

theorem sublistForall₂_append (h : SublistForall₂ R l₁ l₂) (h' : SublistForall₂ R l₁' l₂') :
    SublistForall₂ R (l₁ ++ l₁') (l₂ ++ l₂') := by
  induction h with
  | nil => exact sublistForall₂_prepend h'
  | cons hab _ ih => exact .cons hab ih
  | cons_right _ ih => exact .cons_right ih

theorem sublistForall₂_flatMap {f : α → List γ} {g : β → List δ}
    (hfg : ∀ a b, R a b → SublistForall₂ S (f a) (g b)) (h : SublistForall₂ R l₁ l₂) :
    SublistForall₂ S (l₁.flatMap f) (l₂.flatMap g) := by
  induction h with
  | nil => exact .nil
  | cons hab _ ih => exact sublistForall₂_append (hfg _ _ hab) ih
  | cons_right _ ih => exact sublistForall₂_prepend ih

theorem sublistForall₂_map {f : α → γ} {g : β → δ} (hfg : ∀ a b, R a b → S (f a) (g b))
    (h : SublistForall₂ R l₁ l₂) : SublistForall₂ S (l₁.map f) (l₂.map g) := by
  induction h with
  | nil => exact .nil
  | cons hab _ ih => exact .cons (hfg _ _ hab) ih
  | cons_right _ ih => exact .cons_right ih

theorem length_le_of_sublistForall₂ (h : SublistForall₂ R l₁ l₂) : l₁.length ≤ l₂.length := by
  obtain ⟨l, hall, hsub⟩ := sublistForall₂_iff.mp h
  rw [hall.length_eq]
  exact hsub.length_le

theorem forall₂_of_sublistForall₂ (h : SublistForall₂ R l₁ l₂) (hlength : l₂.length ≤ l₁.length) :
    Forall₂ R l₁ l₂ := by
  obtain ⟨l, hall, hsub⟩ := sublistForall₂_iff.mp h
  rwa [← hsub.eq_of_length_le (hall.length_eq ▸ hlength)]

theorem head?_of_forall₂ (h : Forall₂ R l₁ l₂) : Option.Rel R l₁.head? l₂.head? := by
  cases h with
  | nil => exact .none
  | cons hab _ => exact .some hab

end Sublists

/-! ## Patterns on texts alike -/

section Alike
variable {R : Char → Char → Prop} {r s : Pattern} {c d c' d' : Cursor}

abbrev GroupsAlike (R : Char → Char → Prop) (groups groups' : List (String × List Char)) : Prop :=
  List.Forall₂ (fun g h => g.1 = h.1 ∧ List.Forall₂ R g.2 h.2) groups groups'

structure CursorsAlike (R : Char → Char → Prop) (c d : Cursor) : Prop where
  before : List.Forall₂ R c.before d.before
  after : List.Forall₂ R c.after d.after
  groups : GroupsAlike R c.groups d.groups

/-- Of the same shape, and every condition of the first one implies the one of the
second on characters alike. -/
inductive Below (R : Char → Char → Prop) : Pattern → Pattern → Prop
  | char {p q : Char → Bool} (h : ∀ x y, R x y → p x = true → q y = true) :
      Below R (.char p) (.char q)
  | empty : Below R .empty .empty
  | seq {r r' s s' : Pattern} (hr : Below R r r') (hs : Below R s s') :
      Below R (.seq r s) (.seq r' s')
  | alt {r r' s s' : Pattern} (hr : Below R r r') (hs : Below R s s') :
      Below R (.alt r s) (.alt r' s')
  | rep {r r' : Pattern} (greedy : Bool) (lo : Nat) (hi : Option Nat) (hr : Below R r r') :
      Below R (.rep greedy lo hi r) (.rep greedy lo hi r')
  | group {r r' : Pattern} (name : String) (hr : Below R r r') :
      Below R (.group name r) (.group name r')
  | assert {p q : Option Char → List Char → Bool}
      (h : ∀ b b' a a', Option.Rel R b b' → List.Forall₂ R a a' → p b a = true → q b' a' = true) :
      Below R (.assert p) (.assert q)
  | look {r r' : Pattern} (hr : Below R r r') : Below R (.look r) (.look r')

theorem CursorsAlike.between (h : CursorsAlike R c d) (h' : CursorsAlike R c' d') :
    List.Forall₂ R (between c c') (between d d') := by
  unfold Regex.between
  rw [h.after.length_eq, h'.after.length_eq]
  exact List.forall₂_take _ h.after

theorem iterate_below {step step' : Cursor → List Cursor} {greedy : Bool} {fuel lo : Nat}
    (hstep : ∀ c d, CursorsAlike R c d →
      List.SublistForall₂ (CursorsAlike R) (step c) (step' d)) (h : CursorsAlike R c d) :
    List.SublistForall₂ (CursorsAlike R) (iterate step greedy fuel lo c)
      (iterate step' greedy fuel lo d) := by
  induction fuel generalizing lo c d with
  | zero =>
    rw [iterate, iterate]
    split
    · exact .cons h .nil
    · exact .nil
  | succ fuel ih =>
    have hmore := @sublistForall₂_flatMap _ _ _ _ _ (CursorsAlike R) _ _
      (iterate step greedy fuel (lo - 1)) (iterate step' greedy fuel (lo - 1))
      (fun _ _ hnext => ih hnext) (hstep c d h)
    rw [iterate, iterate]
    split
    · split
      · exact sublistForall₂_append hmore (.cons h .nil)
      · exact .cons h hmore
    · exact hmore

/-- **A pattern below another matches no more**, in the same order. -/
theorem run_below (hrs : Below R r s) (h : CursorsAlike R c d) :
    List.SublistForall₂ (CursorsAlike R) (run r c) (run s d) := by
  induction hrs generalizing c d with
  | @char p q hpq =>
    rw [run, run]
    cases hc : c.after with
    | nil => exact .nil
    | cons x rest =>
      have hafter := h.after
      rw [hc] at hafter
      cases hd : d.after with
      | nil =>
        rw [hd] at hafter
        cases hafter
      | cons y rest' =>
        rw [hd] at hafter
        cases hafter with
        | cons hxy hrest =>
          dsimp only
          split
          · next hp =>
            rw [if_pos (hpq x y hxy hp)]
            exact .cons ⟨.cons hxy h.before, hrest, h.groups⟩ .nil
          · exact .nil
  | empty => exact .cons h .nil
  | seq hr hs ihr ihs => exact sublistForall₂_flatMap (fun _ _ hnext => ihs hnext) (ihr h)
  | alt hr hs ihr ihs => exact sublistForall₂_append (ihr h) (ihs h)
  | rep greedy lo hi hr ih =>
    rw [run, run, h.after.length_eq]
    exact iterate_below (fun _ _ hnext => ih hnext) h
  | group name hr ih =>
    exact sublistForall₂_map
      (fun _ _ hnext => ⟨hnext.before, hnext.after, .cons ⟨rfl, h.between hnext⟩ hnext.groups⟩) (ih h)
  | @assert p q hpq =>
    rw [run, run]
    split
    · next hp =>
      rw [if_pos (hpq _ _ _ _ (head?_of_forall₂ h.before) h.after hp)]
      exact .cons h .nil
    · exact .nil
  | @look r r' hr ih =>
    rw [run, run]
    cases hfirst : run r c with
    | nil => exact .nil
    | cons e es =>
      have hsecond := length_le_of_sublistForall₂ (ih h)
      rw [hfirst, List.length_cons] at hsecond
      have hsome : run r' d ≠ [] :=
        List.ne_nil_of_length_pos (Nat.lt_of_lt_of_le (Nat.succ_pos _) hsecond)
      rw [if_neg (List.isEmpty_iff.not.mpr (List.cons_ne_nil e es)),
        if_neg (List.isEmpty_iff.not.mpr hsome)]
      exact .cons h .nil

end Alike

/-! ## Readings of a hole -/

/-- A character that stands for an unknown one of the alphabet. -/
structure Unknown where
  hole : Char
  alphabet : List Char

variable (u : Unknown)

/-- The characters a place of the text may hold. -/
def Unknown.options (x : Char) : List Char := if x = u.hole then u.alphabet else [x]

/-- The characters two places may hold, the second one only where it is there. -/
def Unknown.sides (before : Option Char) (after : List Char) : List (Option Char × List Char) :=
  let befores := match before with
    | none => [none]
    | some x => (u.options x).map some
  let afters := match after.head? with
    | none => [[]]
    | some x => (u.options x).map ([·])
  befores.flatMap fun b => afters.map fun a => (b, a)

def quantify {α : Type} (sure : Bool) (options : List α) (p : α → Bool) : Bool :=
  if sure then options.all p else options.any p

/-- The pattern on a text with holes, where every filling matches, or some filling. -/
def Unknown.reading (sure : Bool) : Pattern → Pattern
  | .char p => .char fun x => quantify sure (u.options x) p
  | .empty => .empty
  | .seq r s => .seq (reading sure r) (reading sure s)
  | .alt r s => .alt (reading sure r) (reading sure s)
  | .rep greedy lo hi r => .rep greedy lo hi (reading sure r)
  | .group name r => .group name (reading sure r)
  | .assert p => .assert fun b a => quantify sure (u.sides b a) fun side => p side.1 side.2
  | .look r => .look (reading sure r)

/-- Conditions ask for no more of the text ahead than its first character. -/
def Local : Pattern → Prop
  | .assert p => ∀ b a, p b a = p b a.head?.toList
  | .seq r s | .alt r s => Local r ∧ Local s
  | .rep _ _ _ r | .group _ r | .look r => Local r
  | _ => True

variable {u} {Q : Char → Char → Prop} {r : Pattern} {c d : Cursor}

section Fillings
variable (hQ : ∀ x y, Q x y → y ∈ u.options x)
include hQ

theorem mem_sides {b b' : Option Char} {a a' : List Char} (hb : Option.Rel Q b b')
    (ha : List.Forall₂ Q a a') : (b', a'.head?.toList) ∈ u.sides b a := by
  unfold Unknown.sides
  refine List.mem_flatMap.mpr ⟨b', ?_, List.mem_map.mpr ⟨a'.head?.toList, ?_, rfl⟩⟩
  · cases hb with
    | none => exact List.mem_singleton_self _
    | some hxy => exact List.mem_map_of_mem (hQ _ _ hxy)
  · cases ha with
    | nil => exact List.mem_singleton_self _
    | cons hxy _ => exact List.mem_map_of_mem (hQ _ _ hxy)

theorem below_sure (hr : Local r) : Below Q (u.reading true r) r := by
  induction r with
  | char p => exact .char fun x y hxy hp => List.all_eq_true.mp hp y (hQ x y hxy)
  | empty => exact .empty
  | seq r s ihr ihs => exact .seq (ihr hr.1) (ihs hr.2)
  | alt r s ihr ihs => exact .alt (ihr hr.1) (ihs hr.2)
  | rep greedy lo hi r ih => exact .rep greedy lo hi (ih hr)
  | group name r ih => exact .group name (ih hr)
  | assert p =>
    refine .assert fun b b' a a' hb ha hp => ?_
    rw [hr]
    exact List.all_eq_true.mp hp _ (mem_sides hQ hb ha)
  | look r ih => exact .look (ih hr)

theorem below_some (hr : Local r) : Below (fun y x => Q x y) r (u.reading false r) := by
  induction r with
  | char p => exact .char fun y x hxy hp => List.any_eq_true.mpr ⟨y, hQ x y hxy, hp⟩
  | empty => exact .empty
  | seq r s ihr ihs => exact .seq (ihr hr.1) (ihs hr.2)
  | alt r s ihr ihs => exact .alt (ihr hr.1) (ihs hr.2)
  | rep greedy lo hi r ih => exact .rep greedy lo hi (ih hr)
  | group name r ih => exact .group name (ih hr)
  | assert p =>
    refine .assert fun b b' a a' hb ha hp => List.any_eq_true.mpr ?_
    rw [hr] at hp
    refine ⟨_, mem_sides hQ ?_ ha.flip, hp⟩
    cases hb with
    | none => exact .none
    | some hxy => exact .some hxy
  | look r ih => exact .look (ih hr)

/-- Both readings match alike, and so does every filling. -/
theorem run_settled (hr : Local r) (h : CursorsAlike Q c d)
    (hsettled : run (u.reading true r) c = run (u.reading false r) c) :
    List.Forall₂ (CursorsAlike Q) (run (u.reading true r) c) (run r d) := by
  have hflip : CursorsAlike (fun y x => Q x y) d c := by
    refine ⟨h.before.flip, h.after.flip, ?_⟩
    exact h.groups.flip.imp fun g g' hg => ⟨hg.1.symm, hg.2.flip⟩
  refine forall₂_of_sublistForall₂ (run_below (below_sure hQ hr) h) ?_
  rw [hsettled]
  exact length_le_of_sublistForall₂ (run_below (below_some hQ hr) hflip)

/-! ## Substitution without the fillings -/

structure MatchesAlike (Q : Char → Char → Prop) (m m' : Match) : Prop where
  text : List.Forall₂ Q m.text m'.text
  rest : List.Forall₂ Q m.rest m'.rest
  groups : GroupsAlike Q m.groups m'.groups

omit hQ in
theorem MatchesAlike.group {m m' : Match} (h : MatchesAlike Q m m') (name : String) :
    List.Forall₂ Q ((m.group name).getD []) ((m'.group name).getD []) := by
  unfold Match.group
  have hgroups := h.groups
  generalize m.groups = groups at hgroups
  generalize m'.groups = groups' at hgroups
  induction hgroups with
  | nil => exact .nil
  | @cons g g' groups groups' hg _ ih =>
    rw [List.lookup_cons, List.lookup_cons, ← hg.1]
    split
    · exact hg.2
    · exact ih

theorem matchAt_settled {before before' after after' : List Char} (hr : Local r)
    (hbefore : List.Forall₂ Q before before') (hafter : List.Forall₂ Q after after')
    (hsettled : run (u.reading true r) { before, after } = run (u.reading false r) { before, after }) :
    Option.Rel (MatchesAlike Q) (matchAt (u.reading true r) before after) (matchAt r before' after') := by
  have hstart : CursorsAlike Q { before, after } { before := before', after := after' } :=
    ⟨hbefore, hafter, .nil⟩
  have hfirst := head?_of_forall₂ (run_settled hQ hr hstart hsettled)
  unfold matchAt
  dsimp only
  generalize (run (u.reading true r) { before, after }).head? = first at hfirst ⊢
  generalize (run r { before := before', after := after' }).head? = first' at hfirst ⊢
  cases hfirst with
  | none => exact .none
  | some hcursors => exact .some ⟨hstart.between hcursors, hcursors.after, hcursors.groups⟩

end Fillings

/-- The substitution in a text with holes, unless it depends on what they hold. -/
def Unknown.subFrom (u : Unknown) (r : Pattern) (replace : Match → List Char) :
    Nat → List Char → List Char → Option (List Char)
  | 0, _, after => some after
  | _ + 1, _, [] => some []
  | fuel + 1, before, x :: rest =>
    let start : Cursor := { before, after := x :: rest }
    if run (u.reading true r) start = run (u.reading false r) start then
      match matchAt (u.reading true r) before (x :: rest) with
      | some m => (subFrom u r replace fuel (m.text.reverse ++ before) m.rest).map (replace m ++ ·)
      | none => (subFrom u r replace fuel (x :: before) rest).map (x :: ·)
    else none

def Unknown.sub (u : Unknown) (r : Pattern) (replace : Match → List Char) (text : List Char) :
    Option (List Char) := u.subFrom r replace text.length [] text

variable {replace : Match → List Char}

theorem subFrom_alike (hQ : ∀ x y, Q x y → y ∈ u.options x) (hr : Local r)
    (hreplace : ∀ m m', MatchesAlike Q m m' → List.Forall₂ Q (replace m) (replace m')) {fuel : Nat}
    {before before' after after' out : List Char} (hbefore : List.Forall₂ Q before before')
    (hafter : List.Forall₂ Q after after') (h : u.subFrom r replace fuel before after = some out) :
    List.Forall₂ Q out (subFrom r replace fuel before' after') := by
  induction fuel generalizing before before' after after' out with
  | zero =>
    obtain rfl := Option.some.inj h
    exact hafter
  | succ fuel ih =>
    cases hafter with
    | nil =>
      obtain rfl := Option.some.inj h
      exact .nil
    | @cons x y rest rest' hxy hrest =>
      rw [Unknown.subFrom] at h
      split at h
      · next hsettled =>
        have hmatch := matchAt_settled hQ hr hbefore (.cons hxy hrest) hsettled
        rw [subFrom]
        generalize matchAt (u.reading true r) before (x :: rest) = found at h hmatch
        generalize matchAt r before' (y :: rest') = found' at hmatch ⊢
        cases hmatch with
        | some hm =>
          obtain ⟨out', hout, rfl⟩ := Option.map_eq_some_iff.mp h
          have hnext := List.rel_append (List.forall₂_reverse_iff.mpr hm.text) hbefore
          exact List.rel_append (hreplace _ _ hm) (ih hnext hm.rest hout)
        | none =>
          obtain ⟨out', hout, rfl⟩ := Option.map_eq_some_iff.mp h
          exact .cons hxy (ih (.cons hxy hbefore) hrest hout)
      · cases h

/-- **A substitution that does not depend on the holes is the one in every
filling.** -/
theorem sub_alike (hQ : ∀ x y, Q x y → y ∈ u.options x) (hr : Local r)
    (hreplace : ∀ m m', MatchesAlike Q m m' → List.Forall₂ Q (replace m) (replace m'))
    {text text' out : List Char} (htext : List.Forall₂ Q text text')
    (h : u.sub r replace text = some out) : List.Forall₂ Q out (sub r replace text') := by
  rw [Unknown.sub] at h
  rw [sub, ← htext.length_eq]
  exact subFrom_alike hQ hr hreplace .nil htext h

end RetailPrintGuard.Library.UnknownText

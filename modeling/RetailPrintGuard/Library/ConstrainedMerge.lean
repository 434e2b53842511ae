import Mathlib.Order.MinMax
import Mathlib.Logic.Relation

/-! # Greedy merging under a constraint

A partition is grown edge by edge: an edge joins the components of its two
ends when a predicate accepts the joined component, and is dropped otherwise.
The predicate need not be monotone, so an edge dropped early could be accepted
later and the order of the edges matters. Stated here is what does not depend
on it: a component evolves on its own (`mergeAll_filter_of_closed`), without
rejections the components are the connected ones (`same_of_connected`), and a
longer edge list coarsens the result when only components of one kind can be
rejected (`mergeAll_refines`). -/
namespace RetailPrintGuard.Library.ConstrainedMerge
open Relation

/-- A partition with a representative for each element. The state is well
formed by construction: `members` of a representative is its class. -/
structure Components (α : Type) where
  find : α → α
  members : α → List α
  find_find : ∀ a, find (find a) = find a
  mem_members : ∀ a b, b ∈ members (find a) ↔ find b = find a

namespace Components
variable {α : Type} {c : Components α}

/-- Every element on its own. -/
def start : Components α where
  find := id
  members a := [a]
  find_find _ := rfl
  mem_members a b := by simp

/-- Two elements lie in one component. -/
def Same (c : Components α) (a b : α) : Prop := c.find a = c.find b

instance [DecidableEq α] (c : Components α) (a b : α) : Decidable (c.Same a b) :=
  inferInstanceAs (Decidable (c.find a = c.find b))

@[simp] theorem same_start {a b : α} : (start : Components α).Same a b ↔ a = b := Iff.rfl

@[refl] theorem Same.refl (c : Components α) (a : α) : c.Same a a := rfl

theorem Same.symm {a b : α} (h : c.Same a b) : c.Same b a := Eq.symm h

theorem Same.trans {a b d : α} (h : c.Same a b) (k : c.Same b d) : c.Same a d := Eq.trans h k

/-- The component an edge proposes: the classes of both its ends. -/
def proposed (c : Components α) (e : α × α) : List α :=
  c.members (c.find e.1) ++ c.members (c.find e.2)

/-- An element lies in the component an edge proposes. -/
def Touches (c : Components α) (e : α × α) (x : α) : Prop := c.Same x e.1 ∨ c.Same x e.2

theorem mem_proposed {e : α × α} {x : α} : x ∈ c.proposed e ↔ c.Touches e x := by
  simp [proposed, Touches, Same, c.mem_members]

variable [LinearOrder α]

/-- Join the components of both ends; the smaller representative stays. -/
def join (c : Components α) (e : α × α) : Components α where
  find v := if c.find v = max (c.find e.1) (c.find e.2) then min (c.find e.1) (c.find e.2)
    else c.find v
  members r := if r = min (c.find e.1) (c.find e.2) then c.proposed e
    else if r = max (c.find e.1) (c.find e.2) then [] else c.members r
  find_find a := by
    have hmin : c.find (min (c.find e.1) (c.find e.2)) = min (c.find e.1) (c.find e.2) := by
      rcases min_choice (c.find e.1) (c.find e.2) with h | h <;> rw [h, c.find_find]
    by_cases ha : c.find a = max (c.find e.1) (c.find e.2)
    · simp only [ha, if_true, hmin, ite_self]
    · simp only [ha, if_false, c.find_find]
  mem_members a b := by
    have h1 := c.mem_members e.1 b
    have h2 := c.mem_members e.2 b
    have h3 := c.mem_members a b
    simp only [proposed]
    rcases le_total (c.find e.1) (c.find e.2) with h | h
    · simp only [min_eq_left h, max_eq_right h]
      grind
    · simp only [min_eq_right h, max_eq_left h]
      grind

theorem same_join {e : α × α} {x y : α} :
    (c.join e).Same x y ↔ c.Same x y ∨ (c.Touches e x ∧ c.Touches e y) := by
  simp only [Same, Touches, join]
  rcases le_total (c.find e.1) (c.find e.2) with h | h
  · simp only [min_eq_left h, max_eq_right h]
    grind
  · simp only [min_eq_right h, max_eq_left h]
    grind

end Components

open Components
variable {α : Type}

/-- Acceptance depends on which elements are proposed, not on their order. -/
def Extensional (accept : List α → Bool) : Prop :=
  ∀ l l', (∀ x, x ∈ l ↔ x ∈ l') → accept l = accept l'

/-- The components met so far do not leave `T`. -/
def Closed (T : α → Prop) (c : Components α) : Prop := ∀ x y, c.Same x y → T x → T y

theorem closed_start (T : α → Prop) : Closed T (start : Components α) := by
  intro x y h hx
  rwa [← same_start.mp h]

/-- `d` is coarser than `c`, and its components without an anchor are
components of `c` as well. -/
structure Refines (N : α → Prop) (c d : Components α) : Prop where
  coarser : ∀ x y, c.Same x y → d.Same x y
  unanchored : ∀ x, (∀ y, d.Same x y → ¬ N y) → ∀ y, d.Same x y → c.Same x y

theorem refines_start (N : α → Prop) : Refines N (start : Components α) start :=
  ⟨fun _ _ h => h, fun _ _ _ h => h⟩

variable [LinearOrder α]

/-- One edge: nothing to do inside a component, else join if accepted. -/
def union (accept : List α → Bool) (c : Components α) (e : α × α) : Components α :=
  if c.find e.1 = c.find e.2 then c
  else if accept (c.proposed e) then c.join e else c

/-- All edges, in the order given. -/
def mergeAll (accept : List α → Bool) (edges : List (α × α)) (c : Components α) : Components α :=
  edges.foldl (union accept) c

variable {accept : List α → Bool} {c : Components α}

/-- What one edge can do. -/
theorem same_union {e : α × α} {x y : α} :
    (union accept c e).Same x y ↔
      c.Same x y ∨ (accept (c.proposed e) = true ∧ c.Touches e x ∧ c.Touches e y) := by
  unfold union
  by_cases hs : c.find e.1 = c.find e.2
  · rw [if_pos hs]
    constructor
    · exact Or.inl
    · rintro (h | ⟨-, hx, hy⟩)
      · exact h
      · have hx' : c.find x = c.find e.1 := hx.elim id (fun h => Eq.trans h hs.symm)
        have hy' : c.find y = c.find e.1 := hy.elim id (fun h => Eq.trans h hs.symm)
        exact hx'.trans hy'.symm
  · rw [if_neg hs]
    by_cases ha : accept (c.proposed e) = true
    · rw [if_pos ha, same_join]
      simp [ha]
    · rw [if_neg ha]
      simp [ha]

theorem same_union_of_same {e : α × α} {x y : α} (h : c.Same x y) :
    (union accept c e).Same x y := same_union.mpr (Or.inl h)

/-- An accepted edge joins its ends. -/
theorem same_ends_of_accepted {e : α × α} (h : accept (c.proposed e) = true) :
    (union accept c e).Same e.1 e.2 :=
  same_union.mpr (Or.inr ⟨h, Or.inl rfl, Or.inr rfl⟩)

@[simp] theorem mergeAll_nil : mergeAll accept [] c = c := rfl

@[simp] theorem mergeAll_cons (e : α × α) (es : List (α × α)) :
    mergeAll accept (e :: es) c = mergeAll accept es (union accept c e) := rfl

theorem mergeAll_append (es fs : List (α × α)) :
    mergeAll accept (es ++ fs) c = mergeAll accept fs (mergeAll accept es c) :=
  List.foldl_append

/-- Components only grow. -/
theorem same_mergeAll_of_same {x y : α} (h : c.Same x y) (edges : List (α × α)) :
    (mergeAll accept edges c).Same x y := by
  induction edges generalizing c with
  | nil => exact h
  | cons e es ih => exact ih (same_union_of_same h)

/-- The ends of an edge, connected through the components met so far. -/
def Linked (c : Components α) (edges : List (α × α)) : α → α → Prop :=
  EqvGen fun a b => c.Same a b ∨ (a, b) ∈ edges

/-- Elements share a component only along edges. -/
theorem linked_of_same {edges : List (α × α)} {x y : α}
    (h : (mergeAll accept edges c).Same x y) : Linked c edges x y := by
  induction edges generalizing c with
  | nil => exact .rel _ _ (Or.inl h)
  | cons e es ih =>
    have step : ∀ a b, (union accept c e).Same a b ∨ (a, b) ∈ es → Linked c (e :: es) a b := by
      rintro a b (hab | hab)
      · rcases same_union.mp hab with hab | ⟨-, ha, hb⟩
        · exact .rel _ _ (Or.inl hab)
        · have he : Linked c (e :: es) e.1 e.2 := .rel _ _ (Or.inr (by simp))
          have toLeft : ∀ z, c.Touches e z → Linked c (e :: es) z e.1 := by
            rintro z (hz | hz)
            · exact .rel _ _ (Or.inl hz)
            · exact .trans _ _ _ (.rel _ _ (Or.inl hz)) (.symm _ _ he)
          exact .trans _ _ _ (toLeft a ha) (.symm _ _ (toLeft b hb))
      · exact .rel _ _ (Or.inr (List.mem_cons_of_mem _ hab))
    have hl := ih h
    clear h ih
    induction hl with
    | rel a b hab => exact step a b hab
    | refl a => exact .refl a
    | symm a b _ ih => exact .symm _ _ ih
    | trans a b d _ _ ih₁ ih₂ => exact .trans _ _ _ ih₁ ih₂

/-- A set no edge crosses is a union of components. -/
theorem closed_of_uncrossed {edges : List (α × α)} {T : α → Prop}
    (hT : ∀ e ∈ edges, T e.1 ↔ T e.2) {x y : α}
    (h : (mergeAll accept edges start).Same x y) : T x ↔ T y := by
  have hl := linked_of_same h
  clear h
  induction hl with
  | rel a b hab =>
    rcases hab with hab | hab
    · rw [same_start.mp hab]
    · exact hT _ hab
  | refl a => exact Iff.rfl
  | symm a b _ ih => exact ih.symm
  | trans a b d _ _ ih₁ ih₂ => exact ih₁.trans ih₂

/-! ## A component evolves on its own -/

/-- Both ends of an edge lie in `T`. -/
def inside (T : α → Bool) (e : α × α) : Bool := T e.1 && T e.2

/-- Two partitions agree on the components of the elements of `T`. -/
def AgreeOn (T : α → Bool) (c d : Components α) : Prop :=
  ∀ x, T x = true → ∀ y, c.Same x y ↔ d.Same x y

theorem AgreeOn.union {T : α → Bool} {c d : Components α} (hext : Extensional accept)
    (h : AgreeOn T c d) {e : α × α} (he : inside T e = true) :
    AgreeOn T (union accept c e) (union accept d e) := by
  obtain ⟨he₁, he₂⟩ := Bool.and_eq_true_iff.mp he
  have htouch : ∀ x, c.Touches e x ↔ d.Touches e x := by
    intro x
    have h₁ : c.Same x e.1 ↔ d.Same x e.1 :=
      ⟨fun k => ((h _ he₁ x).mp k.symm).symm, fun k => ((h _ he₁ x).mpr k.symm).symm⟩
    have h₂ : c.Same x e.2 ↔ d.Same x e.2 :=
      ⟨fun k => ((h _ he₂ x).mp k.symm).symm, fun k => ((h _ he₂ x).mpr k.symm).symm⟩
    exact or_congr h₁ h₂
  have hp : accept (c.proposed e) = accept (d.proposed e) :=
    hext _ _ fun z => by rw [mem_proposed, mem_proposed, htouch]
  intro x hx y
  rw [same_union, same_union, h x hx y, hp, htouch, htouch]

/-- A set closed under the final components is merged as if only the edges
inside it had been given. -/
theorem mergeAll_filter_of_closed (hext : Extensional accept) {T : α → Bool} :
    ∀ (edges : List (α × α)) (c d : Components α), AgreeOn T c d →
      (∀ x, T x = true → ∀ y, (mergeAll accept edges c).Same x y → T y = true) →
      AgreeOn T (mergeAll accept edges c) (mergeAll accept (edges.filter (inside T)) d)
  | [], c, d, h, _ => h
  | e :: es, c, d, h, hclosed => by
    by_cases hin : inside T e = true
    · rw [List.filter_cons_of_pos hin]
      exact mergeAll_filter_of_closed hext es _ _ (h.union hext hin) hclosed
    · rw [List.filter_cons_of_neg hin]
      refine mergeAll_filter_of_closed hext es _ _ ?_ hclosed
      -- an accepted edge within reach of `T` would have both its ends in `T`
      intro x hx y
      rw [← h x hx y, same_union]
      refine ⟨?_, Or.inl⟩
      rintro (hxy | ⟨ha, hxe, -⟩)
      · exact hxy
      · have hends := same_ends_of_accepted ha
        have hx₁ : (ConstrainedMerge.union accept c e).Same x e.1 := by
          rcases hxe with hxe | hxe
          · exact same_union_of_same hxe
          · exact (same_union_of_same hxe).trans hends.symm
        have h₁ := hclosed x hx e.1 (same_mergeAll_of_same hx₁ es)
        have h₂ := hclosed x hx e.2 (same_mergeAll_of_same (hx₁.trans hends) es)
        exact absurd (Bool.and_eq_true_iff.mpr ⟨h₁, h₂⟩) hin

/-! ## Without rejections -/

theorem Closed.union {T : α → Prop} (h : Closed T c) {e : α × α} (he : T e.1 ↔ T e.2) :
    Closed T (union accept c e) := by
  intro x y hxy hx
  rcases same_union.mp hxy with hxy | ⟨-, hxe, hye⟩
  · exact h x y hxy hx
  · have h₁ : T e.1 := hxe.elim (fun k => h _ _ k hx) (fun k => he.mpr (h _ _ k hx))
    exact hye.elim (fun k => h _ _ k.symm h₁) (fun k => h _ _ k.symm (he.mp h₁))

/-- An edge joins its ends when the parts of `T` with its first end are
accepted. -/
theorem same_of_mem {T : α → Prop} {edges : List (α × α)} (hT : ∀ e ∈ edges, T e.1 ↔ T e.2)
    (hc : Closed T c) {e : α × α} (he : e ∈ edges) (hin : T e.1)
    (hall : ∀ l : List α, e.1 ∈ l → (∀ x ∈ l, T x) → accept l = true) :
    (mergeAll accept edges c).Same e.1 e.2 := by
  induction edges generalizing c with
  | nil => simp at he
  | cons f fs ih =>
    have hcf : Closed T (union accept c f) := hc.union (hT f (by simp))
    rcases List.mem_cons.mp he with rfl | he
    · refine same_mergeAll_of_same (same_ends_of_accepted (hall _ ?_ ?_)) fs
      · exact mem_proposed.mpr (Or.inl (Same.refl c e.1))
      · intro x hx
        rcases mem_proposed.mp hx with hx | hx
        · exact hc _ _ hx.symm hin
        · exact hc _ _ hx.symm ((hT e (by simp)).mp hin)
    · exact ih (fun g hg => hT g (List.mem_cons_of_mem _ hg)) hcf he

/-- Within such a set, the components are the connected ones. -/
theorem same_of_connected {T : α → Prop}
    (hall : ∀ l : List α, (∃ x, x ∈ l) → (∀ x ∈ l, T x) → accept l = true)
    {edges : List (α × α)} (hT : ∀ e ∈ edges, T e.1 ↔ T e.2) {x y : α} (hx : T x)
    (h : EqvGen (fun a b => (a, b) ∈ edges) x y) : (mergeAll accept edges start).Same x y := by
  suffices aux : (T x ↔ T y) ∧ (T x → (mergeAll accept edges start).Same x y) from aux.2 hx
  clear hx
  induction h with
  | rel a b hab => exact ⟨hT _ hab, fun ha => same_of_mem hT (closed_start T) hab ha
      fun l hl => hall l ⟨_, hl⟩⟩
  | refl a => exact ⟨Iff.rfl, fun _ => Same.refl _ a⟩
  | symm a b _ ih => exact ⟨ih.1.symm, fun hb => (ih.2 (ih.1.mpr hb)).symm⟩
  | trans a b d _ _ ih₁ ih₂ =>
    exact ⟨ih₁.1.trans ih₂.1, fun ha => (ih₁.2 ha).trans (ih₂.2 (ih₁.1.mp ha))⟩

/-! ## Acceptance on a part -/

/-- Only the components inside `T` are ever proposed. -/
theorem mergeAll_congr {accept accept' : List α → Bool} {T : α → Prop}
    (hacc : ∀ l, (∀ x ∈ l, T x) → accept l = accept' l) {edges : List (α × α)}
    (hT : ∀ e ∈ edges, T e.1 ∧ T e.2) (hc : Closed T c) :
    mergeAll accept edges c = mergeAll accept' edges c := by
  induction edges generalizing c with
  | nil => rfl
  | cons e es ih =>
    obtain ⟨h₁, h₂⟩ := hT e (by simp)
    have hp : accept (c.proposed e) = accept' (c.proposed e) := by
      refine hacc _ fun x hx => ?_
      exact (mem_proposed.mp hx).elim (fun k => hc _ _ k.symm h₁) fun k => hc _ _ k.symm h₂
    have hu : union accept c e = union accept' c e := by rw [union, union, hp]
    rw [mergeAll_cons, mergeAll_cons, hu]
    refine ih (fun f hf => hT f (List.mem_cons_of_mem _ hf)) ?_
    rw [← hu]
    exact hc.union (by simp [h₁, h₂])

/-! ## Pendant elements -/

/-- An element alone in its component. -/
def Loose (c : Components α) (a : α) : Prop := ∀ y, c.Same a y → y = a

/-- Edges that each hang one loose element on another element move nothing
else: a pendant element never joins two components. -/
theorem same_mergeAll_pendant {edges : List (α × α)} (hn : (edges.map Prod.fst).Nodup)
    (hloose : ∀ e ∈ edges, Loose c e.1) (htarget : ∀ e ∈ edges, ∀ f ∈ edges, e.2 ≠ f.1)
    {x y : α} (hx : ∀ e ∈ edges, x ≠ e.1) (hy : ∀ e ∈ edges, y ≠ e.1) :
    (mergeAll accept edges c).Same x y ↔ c.Same x y := by
  induction edges generalizing c with
  | nil => exact Iff.rfl
  | cons e es ih =>
    have hle := hloose e (by simp)
    have hother : ∀ z, z ≠ e.1 → c.Touches e z → c.Same z e.2 := by
      intro z hz ht
      obtain ht | ht := ht
      · exact absurd (hle z ht.symm) hz
      · exact ht
    have hstep : ∀ z w, z ≠ e.1 → w ≠ e.1 → ((union accept c e).Same z w ↔ c.Same z w) := by
      intro z w hz hw
      rw [same_union]
      constructor
      · intro h
        obtain h | ⟨-, htz, htw⟩ := h
        · exact h
        · exact (hother z hz htz).trans (hother w hw htw).symm
      · exact Or.inl
    have hne : ∀ f ∈ es, f.1 ≠ e.1 := by
      intro f hf heq
      rw [List.map_cons, List.nodup_cons] at hn
      exact hn.1 (heq ▸ List.mem_map_of_mem hf)
    rw [mergeAll_cons, ih (by simpa using (List.nodup_cons.mp hn).2) ?_ ?_ ?_ ?_]
    · exact hstep x y (hx e (by simp)) (hy e (by simp))
    · intro f hf z hz
      have hlf := hloose f (List.mem_cons_of_mem _ hf)
      by_cases hze : z = e.1
      · -- the hung element would share a component with another loose one
        subst hze
        obtain h | ⟨-, htf, -⟩ := same_union.mp hz
        · exact hlf _ h
        · have hte := hother f.1 (hne f hf) htf
          exact absurd (hlf _ hte) (htarget e (by simp) f (List.mem_cons_of_mem _ hf))
      · exact hlf z ((hstep f.1 z (hne f hf) hze).mp hz)
    · exact fun f hf g hg => htarget f (List.mem_cons_of_mem _ hf) g (List.mem_cons_of_mem _ hg)
    · exact fun f hf => hx f (List.mem_cons_of_mem _ hf)
    · exact fun f hf => hy f (List.mem_cons_of_mem _ hf)

/-! ## A longer edge list -/

/-- An edge only the longer list has, with an anchor at one end. -/
theorem Refines.extra {N : α → Prop} {d : Components α} (h : Refines N c d) {e : α × α}
    (he : N e.1 ∨ N e.2) : Refines N c (union accept d e) where
  coarser x y hxy := same_union_of_same (h.coarser x y hxy)
  unanchored x hx y hxy := by
    rcases same_union.mp hxy with hd | ⟨ha, hxe, -⟩
    · exact h.unanchored x (fun z hz => hx z (same_union_of_same hz)) y hd
    · have hends := same_ends_of_accepted ha
      have hx₁ : (union accept d e).Same x e.1 := by
        rcases hxe with hxe | hxe
        · exact same_union_of_same hxe
        · exact (same_union_of_same hxe).trans hends.symm
      exact absurd he (not_or.mpr ⟨hx _ hx₁, hx _ (hx₁.trans hends)⟩)

/-- An edge of both lists: with an anchor in reach the coarser partition
joins, without one both see the same two components. -/
theorem Refines.both {N T : α → Prop} {d : Components α} (hext : Extensional accept)
    (hanchor : ∀ l : List α, (∀ x ∈ l, T x) → (∃ x ∈ l, N x) → accept l = true)
    (hc : Closed T d) (h : Refines N c d) {e : α × α} (he₁ : T e.1) (he₂ : T e.2) :
    Refines N (union accept c e) (union accept d e) := by
  by_cases hn : ∃ x, d.Touches e x ∧ N x
  · have ha : accept (d.proposed e) = true := by
      refine hanchor _ ?_ ?_
      · intro x hx
        exact (mem_proposed.mp hx).elim (fun k => hc _ _ k.symm he₁) fun k => hc _ _ k.symm he₂
      · obtain ⟨x, hx, hxn⟩ := hn
        exact ⟨x, mem_proposed.mpr hx, hxn⟩
    refine ⟨?_, ?_⟩
    · intro x y hxy
      rcases same_union.mp hxy with hxy | ⟨-, hx, hy⟩
      · exact same_union_of_same (h.coarser x y hxy)
      · exact same_union.mpr (Or.inr ⟨ha, hx.imp (h.coarser _ _) (h.coarser _ _),
          hy.imp (h.coarser _ _) (h.coarser _ _)⟩)
    · intro x hx y hxy
      rcases same_union.mp hxy with hd | ⟨-, hxe, -⟩
      · exact same_union_of_same
          (h.unanchored x (fun z hz => hx z (same_union_of_same hz)) y hd)
      · obtain ⟨z, hz, hzn⟩ := hn
        exact absurd hzn (hx z (same_union.mpr (Or.inr ⟨ha, hxe, hz⟩)))
  · have hfree : ∀ x, d.Touches e x → ∀ y, d.Same x y → ¬ N y := by
      intro x hx y hxy hyn
      exact hn ⟨y, hx.imp hxy.symm.trans hxy.symm.trans, hyn⟩
    have htouch : ∀ x, c.Touches e x ↔ d.Touches e x := by
      intro x
      constructor
      · exact fun k => k.imp (h.coarser _ _) (h.coarser _ _)
      · intro k
        exact k.imp (h.unanchored x (hfree x k) _) (h.unanchored x (hfree x k) _)
    have hp : accept (c.proposed e) = accept (d.proposed e) :=
      hext _ _ fun z => by rw [mem_proposed, mem_proposed, htouch]
    refine ⟨?_, ?_⟩
    · intro x y hxy
      rcases same_union.mp hxy with hxy | ⟨ha, hx, hy⟩
      · exact same_union_of_same (h.coarser x y hxy)
      · exact same_union.mpr (Or.inr ⟨hp ▸ ha, (htouch x).mp hx, (htouch y).mp hy⟩)
    · intro x hx y hxy
      rcases same_union.mp hxy with hd | ⟨ha, hxe, hye⟩
      · exact same_union_of_same
          (h.unanchored x (fun z hz => hx z (same_union_of_same hz)) y hd)
      · exact same_union.mpr (Or.inr ⟨hp ▸ ha, (htouch x).mpr hxe, (htouch y).mpr hye⟩)

/-- Adding edges coarsens the result, when a component with an anchor is
always accepted and every added edge has an anchor at one end. -/
theorem mergeAll_refines {N T : α → Prop} (hext : Extensional accept)
    (hanchor : ∀ l : List α, (∀ x ∈ l, T x) → (∃ x ∈ l, N x) → accept l = true)
    (keep : α × α → Bool) :
    ∀ (edges : List (α × α)) (c d : Components α), (∀ e ∈ edges, T e.1 ∧ T e.2) →
      (∀ e ∈ edges, keep e = false → N e.1 ∨ N e.2) → Closed T d → Refines N c d →
      Refines N (mergeAll accept (edges.filter keep) c) (mergeAll accept edges d)
  | [], _, _, _, _, _, h => h
  | e :: es, c, d, hT, hN, hc, h => by
    have hTe := hT e (by simp)
    have hTs : ∀ f ∈ es, T f.1 ∧ T f.2 := fun f hf => hT f (List.mem_cons_of_mem _ hf)
    have hNs : ∀ f ∈ es, keep f = false → N f.1 ∨ N f.2 :=
      fun f hf => hN f (List.mem_cons_of_mem _ hf)
    have hcd : Closed T (union accept d e) := hc.union (by simp [hTe])
    by_cases hk : keep e = true
    · rw [List.filter_cons_of_pos hk]
      exact mergeAll_refines hext hanchor keep es _ _ hTs hNs hcd
        (h.both hext hanchor hc hTe.1 hTe.2)
    · rw [List.filter_cons_of_neg hk]
      exact mergeAll_refines hext hanchor keep es _ _ hTs hNs hcd
        (h.extra (hN e (by simp) (by simpa using hk)))

/-! ## Every component was accepted -/

/-- A component of two or more elements passed the test as a whole. -/
theorem accepted_of_same {edges : List (α × α)} {x y : α}
    (h : (mergeAll accept edges start).Same x y) (hne : x ≠ y) :
    ∃ l, accept l = true ∧ ∀ z, z ∈ l ↔ (mergeAll accept edges start).Same z x := by
  suffices aux : ∀ (es : List (α × α)) (c : Components α),
      (∀ x y, c.Same x y → x ≠ y → ∃ l, accept l = true ∧ ∀ z, z ∈ l ↔ c.Same z x) →
      ∀ x y, (mergeAll accept es c).Same x y → x ≠ y →
        ∃ l, accept l = true ∧ ∀ z, z ∈ l ↔ (mergeAll accept es c).Same z x from
    aux edges start (fun x y h hne => absurd (same_start.mp h) hne) x y h hne
  intro es
  induction es with
  | nil => intro c hc; exact hc
  | cons e es ih =>
    intro c hc
    refine ih (union accept c e) ?_
    intro x y hxy hne
    by_cases htouch : accept (c.proposed e) = true ∧ c.Touches e x
    · refine ⟨_, htouch.1, fun z => ?_⟩
      rw [mem_proposed, same_union]
      constructor
      · exact fun hz => Or.inr ⟨htouch.1, hz, htouch.2⟩
      · rintro (hz | ⟨-, hz, -⟩)
        · exact htouch.2.imp hz.trans hz.trans
        · exact hz
    · rcases same_union.mp hxy with hc' | ⟨ha, hx, -⟩
      · obtain ⟨l, hl, hmem⟩ := hc x y hc' hne
        refine ⟨l, hl, fun z => ?_⟩
        rw [hmem, same_union]
        refine ⟨Or.inl, ?_⟩
        rintro (hz | ⟨ha, -, hx⟩)
        · exact hz
        · exact absurd ⟨ha, hx⟩ htouch
      · exact absurd ⟨ha, hx⟩ htouch

/-! ## A component holds together by its own edges -/

/-- An edge between two elements of the component of `x`. -/
def Within (c : Components α) (edges : List (α × α)) (x a b : α) : Prop :=
  (a, b) ∈ edges ∧ c.Same x a ∧ c.Same x b

/-- No edge that leaves a component helped to build it. -/
theorem within_of_same {edges : List (α × α)} {x y : α}
    (h : (mergeAll accept edges start).Same x y) :
    EqvGen (Within (mergeAll accept edges start) edges x) x y := by
  generalize hfinal : mergeAll accept edges start = final at h ⊢
  suffices aux : ∀ (es : List (α × α)) (c : Components α), (∀ e ∈ es, e ∈ edges) →
      mergeAll accept es c = final →
      (∀ a b, c.Same a b → final.Same x a → EqvGen (Within final edges x) a b) →
      ∀ a b, final.Same a b → final.Same x a → EqvGen (Within final edges x) a b by
    refine aux edges start (fun _ he => he) hfinal ?_ x y h (Same.refl _ _)
    intro a b hab _
    rw [same_start.mp hab]
    exact .refl b
  intro es
  induction es with
  | nil =>
    intro c _ hc hwithin
    rw [← hc] at hwithin ⊢
    exact hwithin
  | cons e es ih =>
    intro c hes hc hwithin
    refine ih (union accept c e) (fun f hf => hes f (List.mem_cons_of_mem _ hf)) hc ?_
    have hle : ∀ {a b}, (union accept c e).Same a b → final.Same a b := by
      intro a b hab
      rw [← hc]
      exact same_mergeAll_of_same hab es
    intro a b hab hxa
    obtain hab | ⟨haccept, ha, hb⟩ := same_union.mp hab
    · exact hwithin a b hab hxa
    · -- the accepted edge lies in the component of `x`, like the end `a` reaches it by
      have hends : final.Same e.1 e.2 := hle (same_ends_of_accepted haccept)
      have hx₁ : final.Same x e.1 := by
        obtain ha | ha := ha
        · exact hxa.trans (hle (same_union_of_same ha))
        · exact (hxa.trans (hle (same_union_of_same ha))).trans hends.symm
      have hedge : EqvGen (Within final edges x) e.1 e.2 :=
        .rel _ _ ⟨hes e (by simp), hx₁, hx₁.trans hends⟩
      have hreach : ∀ d, final.Same x d → c.Touches e d →
          EqvGen (Within final edges x) d e.1 := by
        intro d hxd hd
        obtain hd | hd := hd
        · exact hwithin d e.1 hd hxd
        · exact .trans _ _ _ (hwithin d e.2 hd hxd) (.symm _ _ hedge)
      exact .trans _ _ _ (hreach a hxa ha) (.symm _ _ (hreach b (hxa.trans (hle hab)) hb))

omit [LinearOrder α] in
/-- Two different elements that are connected both lie on a step. -/
theorem eq_or_step_of_eqvGen {r : α → α → Prop} {a b : α} (h : EqvGen r a b) :
    a = b ∨ ((∃ d, r a d ∨ r d a) ∧ ∃ d, r b d ∨ r d b) := by
  induction h with
  | rel a b hab => exact Or.inr ⟨⟨b, Or.inl hab⟩, a, Or.inr hab⟩
  | refl a => exact Or.inl rfl
  | symm a b _ ih => exact ih.imp Eq.symm And.symm
  | trans a b d _ _ ih₁ ih₂ =>
    obtain rfl | ⟨ha, hb⟩ := ih₁
    · exact ih₂
    · obtain rfl | ⟨-, hd⟩ := ih₂
      · exact Or.inr ⟨ha, hb⟩
      · exact Or.inr ⟨ha, hd⟩

end RetailPrintGuard.Library.ConstrainedMerge

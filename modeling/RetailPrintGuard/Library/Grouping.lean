import Mathlib.Algebra.Ring.Int.Defs
import Mathlib.Data.List.Basic
import Mathlib.Data.List.Forall2
import Mathlib.Data.List.Nodup

/-! # Grouping by a key

A dictionary in insertion order, kept as its items. The entry of a key is the
fold over the items of that key. -/
namespace RetailPrintGuard.Library.Grouping

variable {α β κ : Type} [BEq κ] [LawfulBEq κ] [DecidableEq κ]

/-- An item under its key: a new entry, or an addition to the one there is. -/
def addItem (key : α → κ) (start : α → β) (add : β → α → β) (groups : List (κ × β)) (item : α) :
    List (κ × β) :=
  match groups.lookup (key item) with
  | none => groups ++ [(key item, start item)]
  | some existing =>
    groups.map fun entry =>
      if entry.1 = key item then (key item, add existing item) else entry

def groupBy (key : α → κ) (start : α → β) (add : β → α → β) (items : List α) : List (κ × β) :=
  items.foldl (addItem key start add) []

/-- The entry the items of one key make. -/
def entryOf (start : α → β) (add : β → α → β) : List α → Option β
  | [] => none
  | item :: items => some (items.foldl add (start item))

variable {key : α → κ} {start : α → β} {add : β → α → β}

theorem lookup_map_replace {groups : List (κ × β)} {k k' : κ} {value : β} :
    (groups.map fun entry => if entry.1 = k then (k, value) else entry).lookup k' =
      (groups.lookup k').map fun old => if k' = k then value else old := by
  induction groups with
  | nil => rfl
  | cons entry groups ih =>
    obtain ⟨name, old⟩ := entry
    rw [List.map_cons, List.lookup_cons]
    by_cases hk : k' = name
    · subst hk
      by_cases hname : k' = k
      · simp [hname]
      · simp [hname]
    · by_cases hname : name = k
      · subst hname
        simp [List.lookup_cons, beq_eq_false_iff_ne.mpr hk, ih]
      · simp [List.lookup_cons, hname, beq_eq_false_iff_ne.mpr hk, ih]

omit [DecidableEq κ] in
theorem mem_of_lookup {groups : List (κ × β)} {k : κ} {value : β}
    (h : groups.lookup k = some value) : (k, value) ∈ groups := by
  obtain ⟨left, right, rfl, -⟩ := List.lookup_eq_some_iff.mp h
  exact List.mem_append_right _ List.mem_cons_self

omit [DecidableEq κ] in
/-- Among distinct keys an entry is found under its own. -/
theorem lookup_of_mem {groups : List (κ × β)} (h : (groups.map Prod.fst).Nodup) {k : κ} {value : β}
    (hmem : (k, value) ∈ groups) : groups.lookup k = some value := by
  induction groups with
  | nil => cases hmem
  | cons entry groups ih =>
    rw [List.map_cons, List.nodup_cons] at h
    rw [List.lookup_cons]
    obtain rfl | hmem := List.mem_cons.mp hmem
    · simp
    · have hne : (k == entry.1) = false :=
        beq_eq_false_iff_ne.mpr fun heq => h.1 (heq ▸ List.mem_map_of_mem hmem)
      rw [hne]
      exact ih h.2 hmem

/-- One item changes the entry of its own key. -/
theorem lookup_addItem {groups : List (κ × β)} {item : α} {k : κ} :
    (addItem key start add groups item).lookup k =
      if k = key item then
        some (match groups.lookup (key item) with
          | none => start item
          | some existing => add existing item)
      else groups.lookup k := by
  unfold addItem
  cases hl : groups.lookup (key item) with
  | none =>
    show (groups ++ [(key item, start item)]).lookup k = _
    rw [List.lookup_append]
    by_cases hk : k = key item
    · simp [hk, hl]
    · simp [hk, List.lookup_cons, beq_eq_false_iff_ne.mpr hk]
  | some existing =>
    show (groups.map _).lookup k = _
    rw [lookup_map_replace]
    by_cases hk : k = key item
    · simp [hk, hl]
    · simp [hk]

theorem lookup_foldl_addItem (items : List α) (groups : List (κ × β)) (k : κ) :
    (items.foldl (addItem key start add) groups).lookup k =
      match groups.lookup k with
      | none => entryOf start add (items.filter fun item => key item = k)
      | some existing => some ((items.filter fun item => key item = k).foldl add existing) := by
  induction items generalizing groups with
  | nil => cases h : groups.lookup k <;> exact h
  | cons item items ih =>
    rw [List.foldl_cons, ih, lookup_addItem]
    by_cases hk : k = key item
    · subst hk
      cases h : groups.lookup (key item) <;> simp [entryOf]
    · have hne : ¬key item = k := fun h => hk h.symm
      simp [hk, hne]

/-- The entry of a key is folded from the items of that key, in their order. -/
theorem lookup_groupBy (items : List α) (k : κ) :
    (groupBy key start add items).lookup k =
      entryOf start add (items.filter fun item => key item = k) :=
  lookup_foldl_addItem items [] k

/-- Items of distinct keys are entries of their own. -/
theorem foldl_addItem_of_nodup (items : List α) (groups : List (κ × β))
    (h : (groups.map Prod.fst ++ items.map key).Nodup) :
    items.foldl (addItem key start add) groups =
      groups ++ items.map fun item => (key item, start item) := by
  induction items generalizing groups with
  | nil => exact (List.append_nil groups).symm
  | cons item items ih =>
    have hnew : groups.lookup (key item) = none := by
      rw [List.lookup_eq_none_iff]
      intro entry hentry
      rw [List.map_cons, List.nodup_append] at h
      have hne := h.2.2 _ (List.mem_map_of_mem hentry) _ List.mem_cons_self
      exact bne_iff_ne.mpr fun heq => hne heq.symm
    have hadd : addItem key start add groups item = groups ++ [(key item, start item)] := by
      rw [addItem, hnew]
    rw [List.foldl_cons, hadd, ih _ (by simpa using h), List.map_cons, List.append_assoc]
    rfl

/-! ## Changing one entry -/

/-- The entry of a key replaced in its place, added at the end, or dropped. -/
def assign (groups : List (κ × β)) (k : κ) : Option β → List (κ × β)
  | none => groups.filter fun entry => entry.1 ≠ k
  | some value =>
    if (groups.lookup k).isSome then
      groups.map fun entry => if entry.1 = k then (k, value) else entry
    else groups ++ [(k, value)]

omit [LawfulBEq κ] in
theorem addItem_eq_assign (groups : List (κ × β)) (item : α) :
    addItem key start add groups item =
      assign groups (key item) (some (match groups.lookup (key item) with
        | none => start item
        | some existing => add existing item)) := by
  cases h : groups.lookup (key item) <;> simp only [addItem, assign, h] <;> rfl

theorem lookup_filter_ne (groups : List (κ × β)) (k k' : κ) :
    (groups.filter fun entry => entry.1 ≠ k).lookup k' =
      if k' = k then none else groups.lookup k' := by
  induction groups with
  | nil => simp
  | cons entry groups ih =>
    obtain ⟨name, old⟩ := entry
    by_cases hname : name = k
    · rw [List.filter_cons_of_neg (by simpa using hname), ih, List.lookup_cons]
      by_cases hk : k' = k
      · rw [if_pos hk, if_pos hk]
      · have hne : (k' == name) = false := beq_eq_false_iff_ne.mpr fun h => hk (h.trans hname)
        rw [hne]
    · rw [List.filter_cons_of_pos (by simpa using hname), List.lookup_cons, List.lookup_cons, ih]
      by_cases hk : k' = name
      · simp [hk, hname]
      · simp [beq_eq_false_iff_ne.mpr hk]

/-- One entry is changed, the others are as they were. -/
theorem lookup_assign (groups : List (κ × β)) (k k' : κ) (value : Option β) :
    (assign groups k value).lookup k' = if k' = k then value else groups.lookup k' := by
  cases value with
  | none => exact lookup_filter_ne groups k k'
  | some value =>
    rw [assign]
    by_cases hsome : (groups.lookup k).isSome = true
    · rw [if_pos hsome, lookup_map_replace]
      by_cases hk : k' = k
      · obtain ⟨old, hold⟩ := Option.isSome_iff_exists.mp hsome
        simp [hk, hold]
      · simp [hk]
    · rw [if_neg hsome, List.lookup_append]
      by_cases hk : k' = k
      · have hnone : groups.lookup k = none := Option.not_isSome_iff_eq_none.mp hsome
        simp [hk, hnone]
      · simp [hk, List.lookup_cons, beq_eq_false_iff_ne.mpr hk]

omit [LawfulBEq κ] in
theorem mem_assign {groups : List (κ × β)} {k : κ} {value : Option β} {entry : κ × β}
    (h : entry ∈ assign groups k value) :
    entry ∈ groups ∨ ∃ v, value = some v ∧ entry = (k, v) := by
  cases value with
  | none => exact Or.inl (List.mem_of_mem_filter h)
  | some v =>
    rw [assign] at h
    split at h
    · obtain ⟨old, hold, rfl⟩ := List.mem_map.mp h
      by_cases hkey : old.1 = k
      · exact Or.inr ⟨v, rfl, by rw [if_pos hkey]⟩
      · rw [if_neg hkey]
        exact Or.inl hold
    · obtain h | h := List.mem_append.mp h
      · exact Or.inl h
      · exact Or.inr ⟨v, rfl, List.mem_singleton.mp h⟩

/-- Distinct keys stay distinct. -/
theorem nodup_assign {groups : List (κ × β)} {k : κ} {value : Option β}
    (h : (groups.map Prod.fst).Nodup) : ((assign groups k value).map Prod.fst).Nodup := by
  cases value with
  | none => exact h.sublist (List.filter_sublist.map _)
  | some v =>
    rw [assign]
    split
    · have hkeys : (groups.map fun entry => if entry.1 = k then (k, v) else entry).map Prod.fst =
          groups.map Prod.fst := by
        rw [List.map_map]
        refine List.map_congr_left fun entry _ => ?_
        by_cases hkey : entry.1 = k
        · simp [hkey]
        · simp [hkey]
      rw [hkeys]
      exact h
    · next hnone =>
      rw [List.map_append, List.nodup_append]
      refine ⟨h, List.nodup_singleton _, fun a ha b hb hab => hnone ?_⟩
      rw [hab, List.mem_singleton.mp hb] at ha
      obtain ⟨entry, hentry, hkey⟩ := List.mem_map.mp ha
      exact List.lookup_isSome_iff.mpr ⟨entry, hentry, beq_iff_eq.mpr hkey.symm⟩

/-- Every key has one entry. -/
theorem nodup_groupBy (items : List α) : ((groupBy key start add items).map Prod.fst).Nodup := by
  refine @List.foldlRecOn _ _ (fun groups : List (κ × β) => (groups.map Prod.fst).Nodup) items
    _ _ List.nodup_nil fun groups h item _ => ?_
  rw [addItem_eq_assign]
  exact nodup_assign h

/-- Two dictionaries with the same values in the same order, whose keys are the
same as far as `P` goes. -/
def SameEntries (P : κ → Prop) : List (κ × β) → List (κ × β) → Prop :=
  List.Forall₂ fun entry other => entry.2 = other.2 ∧ ∀ k, P k → (entry.1 = k ↔ other.1 = k)

variable {P : κ → Prop} {groups others : List (κ × β)} {k : κ}

omit [BEq κ] [LawfulBEq κ] [DecidableEq κ] in
theorem SameEntries.values (h : SameEntries P groups others) :
    groups.map Prod.snd = others.map Prod.snd := by
  induction h with
  | nil => rfl
  | cons hentry _ ih => rw [List.map_cons, List.map_cons, hentry.1, ih]

omit [DecidableEq κ] in
theorem SameEntries.lookup (h : SameEntries P groups others) (hk : P k) :
    groups.lookup k = others.lookup k := by
  induction h with
  | nil => rfl
  | @cons entry other groups others hentry _ ih =>
    obtain ⟨name, value⟩ := entry
    obtain ⟨name', value'⟩ := other
    obtain ⟨rfl, hname⟩ := hentry
    have hsame : (k == name) = (k == name') := by
      rw [Bool.eq_iff_iff, beq_iff_eq, beq_iff_eq, eq_comm, hname k hk, eq_comm]
    rw [List.lookup_cons, List.lookup_cons, ih, hsame]

theorem SameEntries.assign (h : SameEntries P groups others) (hk : P k) (value : Option β) :
    SameEntries P (Grouping.assign groups k value) (Grouping.assign others k value) := by
  cases value with
  | none =>
    show SameEntries P (groups.filter _) (others.filter _)
    induction h with
    | nil => exact .nil
    | @cons entry other groups others hentry _ ih =>
      have hname := hentry.2 k hk
      by_cases hfirst : entry.1 = k
      · rw [List.filter_cons_of_neg (by simpa using hfirst),
          List.filter_cons_of_neg (by simpa using hname.mp hfirst)]
        exact ih
      · rw [List.filter_cons_of_pos (by simpa using hfirst),
          List.filter_cons_of_pos (by simpa using fun hother => hfirst (hname.mpr hother))]
        exact .cons hentry ih
  | some value =>
    rw [Grouping.assign, Grouping.assign, ← h.lookup hk]
    split
    · rw [SameEntries, List.forall₂_map_left_iff, List.forall₂_map_right_iff]
      refine List.Forall₂.imp (fun entry other hentry => ?_) h
      have hname := hentry.2 k hk
      by_cases hfirst : entry.1 = k
      · rw [if_pos hfirst, if_pos (hname.mp hfirst)]
        exact ⟨rfl, fun _ _ => Iff.rfl⟩
      · rw [if_neg hfirst, if_neg fun hother => hfirst (hname.mpr hother)]
        exact hentry
    · exact List.rel_append h (.cons ⟨rfl, fun _ _ => Iff.rfl⟩ .nil)

variable (add)

/-- A quantity that every item adds to is a sum. -/
theorem foldl_add_eq_sum (field : β → Int) {amount : α → Int}
    (hadd : ∀ b a, field (add b a) = field b + amount a) (items : List α) (b : β) :
    field (items.foldl add b) = field b + (items.map amount).sum := by
  induction items generalizing b with
  | nil => simp
  | cons item items ih => rw [List.foldl_cons, ih, hadd, List.map_cons, List.sum_cons, Int.add_assoc]

/-- A value that every item overwrites is the one of the last item. -/
theorem foldl_add_eq_last {γ : Type} (field : β → γ) {value : α → γ}
    (hadd : ∀ b a, field (add b a) = value a) (items : List α) (b : β) :
    field (items.foldl add b) = ((items.map value).getLast?).getD (field b) := by
  induction items generalizing b with
  | nil => rfl
  | cons item items ih =>
    rw [List.foldl_cons, ih, hadd, List.map_cons, List.getLast?_cons]
    rfl

/-- A value that no item changes is the one of the first item. -/
theorem foldl_add_eq_first {γ : Type} (field : β → γ) (hadd : ∀ b a, field (add b a) = field b)
    (items : List α) (b : β) : field (items.foldl add b) = field b := by
  induction items generalizing b with
  | nil => rfl
  | cons item items ih => rw [List.foldl_cons, ih, hadd]

end RetailPrintGuard.Library.Grouping

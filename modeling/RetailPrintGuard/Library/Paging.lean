import Mathlib.Data.List.Sort
import Mathlib.Data.List.Nodup
import Mathlib.Order.Basic

/-! # Pages of sorted rows

Every page is a slice of the rows, sorted by a key. Where rows have one key,
each page may be cut from another order of them. -/
namespace RetailPrintGuard.Library.Paging

variable {α κ : Type} [LinearOrder κ] {key : α → κ} {rows l l' : List α} {size k n : Nat}

/-- An order of the rows that follows the key. -/
structure Arranged (key : α → κ) (rows l : List α) : Prop where
  perm : l.Perm rows
  sorted : l.Pairwise fun a b => key a ≤ key b

def pageAt (offset size : Nat) (l : List α) : List α := (l.drop offset).take size

/-- What a query may return: its rows come in any order that follows the key. -/
def Selects (key : α → κ) (rows : List α) (size offset : Nat) (page : List α) : Prop :=
  ∃ l, Arranged key rows l ∧ page = pageAt offset size l

/-- However each page is cut, the pages together have every row exactly once. -/
def CoversOnce (key : α → κ) (rows : List α) (size : Nat) : Prop :=
  ∀ pages : Nat → List α, (∀ k, Selects key rows size (k * size) (pages k)) →
    ∀ n, rows.length ≤ n * size → ((List.range n).flatMap pages).Perm rows

def sortedKeys (key : α → κ) (rows : List α) : List κ := (rows.map key).insertionSort (· ≤ ·)

/-- No two rows with one key stand on both sides of the boundary of a page. -/
def Untied (key : α → κ) (rows : List α) (size : Nat) : Prop :=
  ∀ k, 0 < k → k * size < rows.length →
    (sortedKeys key rows)[k * size - 1]? ≠ (sortedKeys key rows)[k * size]?

/-! ## Cutting one order -/

theorem Arranged.keys (h : Arranged key rows l) : l.map key = sortedKeys key rows := by
  have hperm : (l.map key).Perm (sortedKeys key rows) :=
    (h.perm.map key).trans (List.perm_insertionSort _ _).symm
  have hsorted : (l.map key).Pairwise (· ≤ ·) := List.pairwise_map.mpr h.sorted
  exact hperm.eq_of_pairwise (fun _ _ _ _ => le_antisymm) hsorted
    (List.pairwise_insertionSort _ _)

theorem Arranged.filter (h : Arranged key rows l) (p : α → Bool) :
    Arranged key (rows.filter p) (l.filter p) :=
  ⟨h.perm.filter p, h.sorted.filter p⟩

/-- The pages of one order are this order, cut. -/
theorem flatMap_pageAt (l : List α) (size n : Nat) :
    (List.range n).flatMap (fun k => pageAt (k * size) size l) = l.take (n * size) := by
  induction n with
  | zero => rw [Nat.zero_mul, List.take_zero]; rfl
  | succ n ih =>
    rw [List.range_succ, List.flatMap_append, ih, List.flatMap_singleton, pageAt, Nat.succ_mul,
      List.take_add]

theorem Arranged.key_le (h : Arranged key rows l) {i j : Nat} (hij : i ≤ j) {a b : α}
    (ha : l[i]? = some a) (hb : l[j]? = some b) : key a ≤ key b := by
  obtain ⟨hi, rfl⟩ := List.getElem?_eq_some_iff.mp ha
  obtain ⟨hj, rfl⟩ := List.getElem?_eq_some_iff.mp hb
  obtain rfl | hlt := Nat.eq_or_lt_of_le hij
  · exact le_refl _
  · exact List.pairwise_iff_getElem.mp h.sorted i j hi hj hlt

/-- The rows below a boundary without a tie are those with at most its last key. -/
theorem Arranged.take_eq_filter (h : Arranged key rows l) {b : Nat} {x y : α}
    (hx : l[b]? = some x) (hy : l[b + 1]? = some y) (hne : key x ≠ key y) :
    l.take (b + 1) = l.filter fun a => key a ≤ key x := by
  have hlt : key x < key y := lt_of_le_of_ne (h.key_le (Nat.le_succ b) hx hy) hne
  have hbelow : (l.take (b + 1)).filter (fun a => key a ≤ key x) = l.take (b + 1) := by
    refine List.filter_eq_self.mpr fun a ha => decide_eq_true ?_
    obtain ⟨i, hi⟩ := List.mem_iff_getElem?.mp ha
    rw [List.getElem?_take] at hi
    split_ifs at hi with hib
    exact h.key_le (by omega) hi hx
  have habove : (l.drop (b + 1)).filter (fun a => key a ≤ key x) = [] := by
    refine List.filter_eq_nil_iff.mpr fun a ha hle => ?_
    obtain ⟨i, hi⟩ := List.mem_iff_getElem?.mp ha
    rw [List.getElem?_drop] at hi
    exact absurd (of_decide_eq_true hle) (not_le.mpr (hlt.trans_le (h.key_le (by omega) hy hi)))
  calc l.take (b + 1)
    _ = (l.take (b + 1) ++ l.drop (b + 1)).filter fun a => key a ≤ key x := by
      rw [List.filter_append, hbelow, habove, List.append_nil]
    _ = l.filter fun a => key a ≤ key x := by rw [List.take_append_drop]

theorem Arranged.getElem?_keys (h : Arranged key rows l) (i : Nat) :
    (sortedKeys key rows)[i]? = l[i]?.map key := by
  rw [← h.keys, List.getElem?_map]

/-- Below a boundary without a tie stand the same rows in every order. -/
theorem take_perm (h : Arranged key rows l) (h' : Arranged key rows l') {b : Nat}
    (huntied : 0 < b → b < rows.length →
      (sortedKeys key rows)[b - 1]? ≠ (sortedKeys key rows)[b]?) :
    (l.take b).Perm (l'.take b) := by
  have hlength := h.perm.length_eq
  have hlength' := h'.perm.length_eq
  have hrows := h.perm.trans h'.perm.symm
  cases b with
  | zero => exact .of_eq (by rw [List.take_zero, List.take_zero])
  | succ b =>
    obtain hin | hout := Nat.lt_or_ge (b + 1) rows.length
    · obtain ⟨x, hx⟩ : ∃ x, l[b]? = some x := ⟨_, List.getElem?_eq_getElem (by omega)⟩
      obtain ⟨y, hy⟩ : ∃ y, l[b + 1]? = some y := ⟨_, List.getElem?_eq_getElem (by omega)⟩
      obtain ⟨x', hx'⟩ : ∃ x', l'[b]? = some x' := ⟨_, List.getElem?_eq_getElem (by omega)⟩
      obtain ⟨y', hy'⟩ : ∃ y', l'[b + 1]? = some y' := ⟨_, List.getElem?_eq_getElem (by omega)⟩
      have hne := huntied (Nat.succ_pos b) hin
      rw [Nat.add_sub_cancel, h.getElem?_keys, h.getElem?_keys, hx, hy] at hne
      -- the keys stand at the same places in both orders
      have hkeyX := (h.getElem?_keys b).symm.trans (h'.getElem?_keys b)
      have hkeyY := (h.getElem?_keys (b + 1)).symm.trans (h'.getElem?_keys (b + 1))
      rw [hx, hx'] at hkeyX
      rw [hy, hy'] at hkeyY
      have hkeyX : key x = key x' := Option.some.inj hkeyX
      have hkeyY : key y = key y' := Option.some.inj hkeyY
      have hne : key x ≠ key y := fun heq => hne (congrArg some heq)
      rw [h.take_eq_filter hx hy hne, h'.take_eq_filter hx' hy' (hkeyX ▸ hkeyY ▸ hne), hkeyX]
      exact hrows.filter _
    · rw [List.take_of_length_le (by omega), List.take_of_length_le (by omega)]
      exact hrows

/-! ## All pages -/

theorem take_add_pageAt (l : List α) (offset size : Nat) :
    l.take offset ++ pageAt offset size l = l.take (offset + size) := by
  rw [pageAt, List.take_add]

/-- Every page has the same rows in every order, if no boundary has a tie. -/
theorem Untied.pageAt_perm (huntied : Untied key rows size) (h : Arranged key rows l)
    (h' : Arranged key rows l') (k : Nat) :
    (pageAt (k * size) size l).Perm (pageAt (k * size) size l') := by
  have hcut : ∀ k, (l.take (k * size)).Perm (l'.take (k * size)) := fun k =>
    take_perm h h' fun hpos hin => huntied k (Nat.pos_of_mul_pos_right hpos) hin
  have hnext := hcut (k + 1)
  rw [Nat.succ_mul, ← take_add_pageAt, ← take_add_pageAt] at hnext
  have hboth := ((hcut k).symm.append_right _).trans hnext
  exact (List.perm_append_left_iff _).mp hboth

theorem exists_arranged (key : α → κ) (rows : List α) : ∃ l, Arranged key rows l := by
  have htotal : Std.Total fun a b : α => key a ≤ key b := ⟨fun a b => le_total _ _⟩
  have htrans : IsTrans α fun a b => key a ≤ key b := ⟨fun _ _ _ => le_trans⟩
  exact ⟨rows.insertionSort fun a b => key a ≤ key b, List.perm_insertionSort _ _,
    List.pairwise_insertionSort _ _⟩

theorem flatMap_perm {f g : Nat → List α} (h : ∀ k, (f k).Perm (g k)) (n : Nat) :
    ((List.range n).flatMap f).Perm ((List.range n).flatMap g) := by
  induction n with
  | zero => exact .nil
  | succ n ih =>
    rw [List.range_succ, List.flatMap_append, List.flatMap_append, List.flatMap_singleton,
      List.flatMap_singleton]
    exact ih.append (h n)

theorem coversOnce_of_untied (huntied : Untied key rows size) :
    CoversOnce key rows size := by
  intro pages hpages n hn
  obtain ⟨l, hl⟩ := exists_arranged key rows
  have hpage : ∀ k, (pages k).Perm (pageAt (k * size) size l) := by
    intro k
    obtain ⟨l', hl', heq⟩ := hpages k
    rw [heq]
    exact huntied.pageAt_perm hl' hl k
  have hall := flatMap_perm hpage n
  rw [flatMap_pageAt, List.take_of_length_le (hl.perm.length_eq.le.trans hn)] at hall
  exact hall.trans hl.perm

/-- Two rows with one key can change their places. -/
theorem Arranged.swap {a b : α} {before behind : List α}
    (h : Arranged key rows (before ++ a :: b :: behind)) (hkey : key a = key b) :
    Arranged key rows (before ++ b :: a :: behind) where
  perm := (List.Perm.append_left before (.swap a b behind)).trans h.perm
  sorted := by
    have hsorted := h.sorted
    simp only [List.pairwise_append, List.pairwise_cons, List.mem_cons] at hsorted ⊢
    obtain ⟨hbefore, ⟨ha, hb, hbehind⟩, hcross⟩ := hsorted
    refine ⟨hbefore, ⟨?_, fun c hc => hkey ▸ hb c hc, hbehind⟩, ?_⟩
    · rintro c (rfl | hc)
      · exact hkey.symm.le
      · exact hb c hc
    · rintro c hc d (rfl | rfl | hd)
      · exact hcross c hc d (.inr (.inl rfl))
      · exact hcross c hc d (.inl rfl)
      · exact hcross c hc d (.inr (.inr hd))

theorem mem_pageAt {a : α} {i offset : Nat} (ha : l[i]? = some a) (hlow : offset ≤ i)
    (hhigh : i < offset + size) : a ∈ pageAt offset size l := by
  refine List.mem_iff_getElem?.mpr ⟨i - offset, ?_⟩
  rw [pageAt, List.getElem?_take_of_lt (by omega), List.getElem?_drop]
  rw [show offset + (i - offset) = i by omega, ha]

/-- A tie on a boundary lets a row stand on both of its sides. -/
theorem untied_of_coversOnce (hsize : 0 < size) (hnodup : rows.Nodup)
    (hcovers : CoversOnce key rows size) : Untied key rows size := by
  intro k hk hin htie
  obtain ⟨l, hl⟩ := exists_arranged key rows
  have hlength := hl.perm.length_eq
  obtain ⟨b, hb⟩ : ∃ b, k * size = b + 1 := ⟨k * size - 1, by have := Nat.mul_pos hk hsize; omega⟩
  rw [hb, Nat.add_sub_cancel, hl.getElem?_keys, hl.getElem?_keys,
    List.getElem?_eq_getElem (by omega), List.getElem?_eq_getElem (by omega)] at htie
  have hkey : key l[b] = key l[b + 1] := Option.some.inj htie
  have hsplit : l = l.take b ++ l[b] :: l[b + 1] :: l.drop (b + 1 + 1) := by
    rw [← List.drop_eq_getElem_cons, ← List.drop_eq_getElem_cons, List.take_append_drop]
  have hswapped := (hsplit ▸ hl).swap hkey
  -- the first row behind the boundary is moved before it, for one page
  set moved := l.take b ++ l[b + 1] :: l[b] :: l.drop (b + 1 + 1)
  have hpages : ∀ j, Selects key rows size (j * size)
      (if j = k - 1 then pageAt (j * size) size moved else pageAt (j * size) size l) := by
    intro j
    split
    · exact ⟨moved, hswapped, rfl⟩
    · exact ⟨l, hl, rfl⟩
  have hfew : rows.length ≤ rows.length * size := Nat.le_mul_of_pos_right _ hsize
  have hk' : k < rows.length := lt_of_le_of_lt (Nat.le_mul_of_pos_right _ hsize) hin
  have hall := (hcovers _ hpages rows.length hfew).symm.nodup hnodup
  have hdisjoint := List.pairwise_iff_getElem.mp (List.nodup_flatMap.mp hall).2 (k - 1) k
    (by rw [List.length_range]; omega) (by rw [List.length_range]; exact hk') (by omega)
  simp only [List.getElem_range, Function.onFun, if_neg (show ¬ k = k - 1 by omega),
    if_true] at hdisjoint
  have hbefore : (k - 1) * size + size = b + 1 := by
    rw [← hb, ← Nat.succ_mul, show (k - 1).succ = k by omega]
  have hmoved : moved[b]? = some l[b + 1] := by
    rw [List.getElem?_append_right (by rw [List.length_take]; omega), List.length_take,
      Nat.min_eq_left (by omega), Nat.sub_self]
    rfl
  have hkept : l[b + 1]? = some l[b + 1] := List.getElem?_eq_getElem (by omega)
  exact hdisjoint (mem_pageAt hmoved (by omega) (by omega)) (mem_pageAt hkept (by omega) (by omega))

/-- The pages fit together exactly when no boundary has a tie. -/
theorem coversOnce_iff (hsize : 0 < size) (hnodup : rows.Nodup) :
    CoversOnce key rows size ↔ Untied key rows size :=
  ⟨untied_of_coversOnce hsize hnodup, coversOnce_of_untied⟩

/-- A key that separates the rows has no ties. -/
theorem untied_of_nodup (hsize : 0 < size) (h : (rows.map key).Nodup) : Untied key rows size := by
  intro k hk hin htie
  have hkeys : (sortedKeys key rows).Nodup := (List.perm_insertionSort _ _).symm.nodup h
  have hlength : (sortedKeys key rows).length = rows.length := by
    rw [sortedKeys, (List.perm_insertionSort _ _).length_eq, List.length_map]
  have hpos := Nat.mul_pos hk hsize
  have hlast : k * size - 1 < (sortedKeys key rows).length := by omega
  have hsame := (List.getElem?_inj hlast hkeys).mp htie
  omega

end RetailPrintGuard.Library.Paging

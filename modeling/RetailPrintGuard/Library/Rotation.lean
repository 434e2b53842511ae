import Mathlib.Data.List.Rotate
import Mathlib.Data.Nat.ModEq

/-! # Rotating windows over a list

A reader that takes a bounded number of elements at a time, each time from where
it stopped, has seen the whole list when it has taken as many as there are. -/
namespace RetailPrintGuard.Library.Rotation

variable {α : Type} {items : List α} {maximum cursor : Nat}

/-- The next elements, and where those after them begin. -/
def rotating (items : List α) (maximum cursor : Nat) : List α × Nat :=
  if items.length ≤ maximum then (items, 0)
  else
    let start := cursor % items.length
    ((items.drop start ++ items.take start).take maximum, (start + maximum) % items.length)

/-- Where a reading begins. -/
def cursorAt (items : List α) (maximum cursor : Nat) : Nat → Nat
  | 0 => cursor
  | k + 1 => (rotating items maximum (cursorAt items maximum cursor k)).2

/-- What a reading yields. -/
def window (items : List α) (maximum cursor k : Nat) : List α :=
  (rotating items maximum (cursorAt items maximum cursor k)).1

theorem window_of_le (h : items.length ≤ maximum) (k : Nat) :
    window items maximum cursor k = items := by
  rw [window, rotating, if_pos h]

theorem cursorAt_mod (h : maximum < items.length) (k : Nat) :
    cursorAt items maximum cursor k % items.length = (cursor + k * maximum) % items.length := by
  induction k with
  | zero => rw [cursorAt, Nat.zero_mul, Nat.add_zero]
  | succ k ih =>
    rw [cursorAt, rotating, if_neg (Nat.not_le.mpr h)]
    show (_ % _ + maximum) % _ % _ = _
    rw [ih, Nat.mod_mod, Nat.mod_add_mod, Nat.succ_mul, Nat.add_assoc]

/-- A window is a part of the list turned to where its reading begins. -/
theorem window_eq_rotate (h : maximum < items.length) (k : Nat) :
    window items maximum cursor k = (items.rotate (cursor + k * maximum)).take maximum := by
  rw [window, rotating, if_neg (Nat.not_le.mpr h)]
  dsimp only
  rw [cursorAt_mod h, ← List.rotate_eq_drop_append_take_mod]

theorem mem_window (h : maximum < items.length) {k : Nat} {x : α} :
    x ∈ window items maximum cursor k ↔
      ∃ j < maximum, items[(cursor + (k * maximum + j)) % items.length]? = some x := by
  rw [window_eq_rotate h, List.mem_iff_getElem?]
  constructor
  · rintro ⟨j, hj⟩
    obtain ⟨hlt, hj⟩ : j < maximum ∧ (items.rotate (cursor + k * maximum))[j]? = some x := by
      rw [List.getElem?_take] at hj
      split at hj
      · next hlt => exact ⟨hlt, hj⟩
      · cases hj
    rw [List.getElem?_rotate (Nat.lt_trans hlt h), Nat.add_comm j, Nat.add_assoc] at hj
    exact ⟨j, hlt, hj⟩
  · rintro ⟨j, hlt, hj⟩
    refine ⟨j, ?_⟩
    rwa [List.getElem?_take, if_pos hlt, List.getElem?_rotate (Nat.lt_trans hlt h), Nat.add_comm j,
      Nat.add_assoc]

theorem length_window (h : maximum < items.length) (k : Nat) :
    (window items maximum cursor k).length = maximum := by
  rw [window_eq_rotate h, List.length_take, List.length_rotate, Nat.min_eq_left (Nat.le_of_lt h)]

theorem nodup_window (h : maximum < items.length) (hnodup : items.Nodup) (k : Nat) :
    (window items maximum cursor k).Nodup := by
  rw [window_eq_rotate h]
  exact (List.nodup_rotate.mpr hnodup).sublist (List.take_sublist _ _)

/-- Later readings go on from where an earlier one begins. -/
theorem cursorAt_add (k p : Nat) : cursorAt items maximum cursor (k + p) =
    cursorAt items maximum (cursorAt items maximum cursor k) p := by
  induction p with
  | zero => rfl
  | succ p ih => rw [← Nat.add_assoc, cursorAt, ih, cursorAt]

theorem window_add (k p : Nat) : window items maximum cursor (k + p) =
    window items maximum (cursorAt items maximum cursor k) p := by
  rw [window, cursorAt_add, window]

/-- Every position is some number of steps ahead. -/
theorem exists_ahead {n i : Nat} (hi : i < n) (cursor : Nat) : ∃ t < n, (cursor + t) % n = i := by
  have hn : 0 < n := Nat.zero_lt_of_lt hi
  have hcursor := Nat.mod_lt cursor hn
  refine ⟨(i + (n - cursor % n)) % n, Nat.mod_lt _ hn, ?_⟩
  rw [Nat.add_mod_mod, ← Nat.mod_add_mod, show cursor % n + (i + (n - cursor % n)) = i + n by omega,
    Nat.add_mod_right, Nat.mod_eq_of_lt hi]

/-- As many readings as it takes show the whole list. -/
theorem exists_window {k : Nat} (hk : items.length ≤ k * maximum) {x : α} (hx : x ∈ items) :
    ∃ p < k, x ∈ window items maximum cursor p := by
  have hpos := List.length_pos_of_mem hx
  by_cases h : items.length ≤ maximum
  · refine ⟨0, ?_, by rwa [window_of_le h]⟩
    rcases Nat.eq_zero_or_pos k with rfl | hkpos
    · omega
    · exact hkpos
  · obtain ⟨i, hi, rfl⟩ := List.mem_iff_getElem.mp hx
    obtain ⟨t, ht, hahead⟩ := exists_ahead hi cursor
    have hmaximum : 0 < maximum := by
      rcases Nat.eq_zero_or_pos maximum with rfl | hpositive
      · omega
      · exact hpositive
    refine ⟨t / maximum, Nat.div_lt_of_lt_mul (by rw [Nat.mul_comm]; omega),
      (mem_window (Nat.not_le.mp h)).mpr ⟨t % maximum, Nat.mod_lt _ hmaximum, ?_⟩⟩
    rw [Nat.div_add_mod', hahead, List.getElem?_eq_getElem hi]

theorem mem_of_mem_window {k : Nat} {x : α} (h : x ∈ window items maximum cursor k) : x ∈ items := by
  by_cases hle : items.length ≤ maximum
  · rwa [window_of_le hle] at h
  · obtain ⟨j, -, hx⟩ := (mem_window (Nat.not_le.mp hle)).mp h
    exact List.mem_of_getElem? hx

/-- A reading that begins before the end of the list shows an element for the
first time. -/
theorem exists_new (hnodup : items.Nodup) (hmaximum : 0 < maximum) {k : Nat}
    (hk : k * maximum < items.length) :
    ∃ x ∈ window items maximum cursor k, ∀ p < k, x ∉ window items maximum cursor p := by
  have hpos : 0 < items.length := by omega
  by_cases h : items.length ≤ maximum
  · -- the first reading
    obtain rfl : k = 0 := by
      by_contra hne
      have : maximum ≤ k * maximum := Nat.le_mul_of_pos_left _ (Nat.pos_of_ne_zero hne)
      omega
    refine ⟨items[0], ?_, fun p hp => absurd hp (Nat.not_lt_zero p)⟩
    rw [window_of_le h]
    exact List.getElem_mem hpos
  · have hlong := Nat.not_le.mp h
    have hnext := Nat.mod_lt (cursor + k * maximum) hpos
    refine ⟨_, (mem_window hlong).mpr ⟨0, hmaximum, List.getElem?_eq_getElem hnext⟩,
      fun p hp hmem => ?_⟩
    obtain ⟨j, hj, heq⟩ := (mem_window hlong).mp hmem
    -- the positions differ by less than the length of the list
    have hlt : p * maximum + j < k * maximum := by
      have hstep : (p + 1) * maximum ≤ k * maximum := Nat.mul_le_mul_right _ hp
      rw [Nat.succ_mul] at hstep
      omega
    rw [List.getElem?_eq_getElem (Nat.mod_lt _ hpos), Option.some.injEq,
      hnodup.getElem_inj_iff] at heq
    have hsame : Nat.ModEq items.length (p * maximum + j) (k * maximum) :=
      Nat.ModEq.add_left_cancel' cursor heq
    have := Nat.ModEq.eq_of_lt_of_lt hsame (by omega) hk
    omega

/-- The readings show the whole list exactly when they take as many elements as
it has. -/
theorem windows_cover (hnodup : items.Nodup) (hmaximum : 0 < maximum) {k : Nat} :
    (∀ x ∈ items, ∃ p < k, x ∈ window items maximum cursor p) ↔ items.length ≤ k * maximum := by
  constructor
  · intro hall
    by_contra hlt
    obtain ⟨x, hx, hleft⟩ := @exists_new _ items maximum cursor hnodup hmaximum k (Nat.not_le.mp hlt)
    obtain ⟨p, hp, hmem⟩ := hall x (mem_of_mem_window hx)
    exact hleft p hp hmem
  · exact fun hk x hx => exists_window hk hx

end RetailPrintGuard.Library.Rotation

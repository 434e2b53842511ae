import RetailPrintGuard.Library.Checks
import RetailPrintGuard.Library.Rotation

/-! # Fair discovery

A poll of an adapter looks at a bounded number of ready markers and the next
one goes on behind them, so that no marker waits for more than one round. -/
namespace RetailPrintGuard.Ingestion.FairDiscovery
open RetailPrintGuard.Library.Checks RetailPrintGuard.Library.Rotation

variable {α : Type}

/-- `_rotating_markers` of the canonical and of the RCH adapter. -/
def rotatingMarkers (markers : List α) (maximum cursor : Nat) : Except String (List α × Nat) :=
  if maximum < 1 then .error "maximum must be positive"
  else if markers.length ≤ maximum then .ok (markers, 0)
  else
    let start := cursor % markers.length
    let rotated := markers.drop start ++ markers.take start
    .ok (rotated.take maximum, (start + maximum) % markers.length)

/-- The cursor of the adapter behind some calls. -/
def discoveryCursor (markers : List α) (maximum cursor : Nat) : Nat → Except String Nat
  | 0 => .ok cursor
  | k + 1 => do
    let (_, cursor) ← rotatingMarkers markers maximum (← discoveryCursor markers maximum cursor k)
    return cursor

/-- The markers a call selects. -/
def selectedBy (markers : List α) (maximum cursor k : Nat) : Except String (List α) := do
  let (selected, _) ← rotatingMarkers markers maximum (← discoveryCursor markers maximum cursor k)
  return selected

variable {markers : List α} {maximum cursor : Nat}

theorem rotatingMarkers_eq (h : 0 < maximum) :
    rotatingMarkers markers maximum cursor = .ok (rotating markers maximum cursor) := by
  rw [rotatingMarkers, if_neg (Nat.not_lt.mpr h), rotating]
  split <;> rfl

theorem discoveryCursor_eq (h : 0 < maximum) (k : Nat) :
    discoveryCursor markers maximum cursor k = .ok (cursorAt markers maximum cursor k) := by
  induction k with
  | zero => rfl
  | succ k ih =>
    rw [discoveryCursor, ih, ok_bind, rotatingMarkers_eq h]
    rfl

/-- The calls see the windows of a rotation. -/
theorem selectedBy_eq (h : 0 < maximum) (k : Nat) :
    selectedBy markers maximum cursor k = .ok (window markers maximum cursor k) := by
  rw [selectedBy, discoveryCursor_eq h, ok_bind, rotatingMarkers_eq h]
  rfl

/-- With more markers than a call takes, each call selects as many different
ones as it may, and one round of calls, begun at any of them, selects all. -/
theorem discovery_is_fair (markers : List α) (hnodup : markers.Nodup) (maximum cursor : Nat)
    (hpositive : 0 < maximum) (hbound : maximum < markers.length) :
    (∀ k, ∃ selected, selectedBy markers maximum cursor k = .ok selected ∧
      selected.length = maximum ∧ selected.Nodup ∧ ∀ marker ∈ selected, marker ∈ markers) ∧
    ∀ first, ∀ marker ∈ markers, ∃ k, first ≤ k ∧
      k < first + (markers.length + maximum - 1) / maximum ∧
      ∃ selected, selectedBy markers maximum cursor k = .ok selected ∧ marker ∈ selected := by
  refine ⟨fun k => ⟨_, selectedBy_eq hpositive k, length_window hbound k,
    nodup_window hbound hnodup k, fun _ => mem_of_mem_window⟩, fun first marker hm => ?_⟩
  have hround : markers.length ≤ (markers.length + maximum - 1) / maximum * maximum := by
    have hdiv := Nat.div_add_mod (markers.length + maximum - 1) maximum
    have hmod := Nat.mod_lt (markers.length + maximum - 1) hpositive
    rw [Nat.mul_comm] at hdiv
    omega
  obtain ⟨p, hp, hin⟩ :=
    @exists_window _ markers maximum (cursorAt markers maximum cursor first) _ hround _ hm
  refine ⟨first + p, Nat.le_add_right _ _, by omega, _, selectedBy_eq hpositive _, ?_⟩
  rwa [window_add]

theorem discovery_is_fair_three :
    (∀ k, ∃ selected, selectedBy ["a", "b", "c"] 2 1 k = .ok selected ∧
      selected.length = 2 ∧ selected.Nodup ∧ ∀ marker ∈ selected, marker ∈ ["a", "b", "c"]) ∧
    ∀ first, ∀ marker ∈ ["a", "b", "c"], ∃ k, first ≤ k ∧ k < first + 2 ∧
      ∃ selected, selectedBy ["a", "b", "c"] 2 1 k = .ok selected ∧ marker ∈ selected :=
  discovery_is_fair ["a", "b", "c"] (by decide) 2 1 (by decide) (by decide)

end RetailPrintGuard.Ingestion.FairDiscovery

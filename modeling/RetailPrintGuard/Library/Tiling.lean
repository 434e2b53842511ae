import Mathlib.Data.List.Basic

/-! # Slices that tile a list

A slice is an offset and a length. -/
namespace RetailPrintGuard.Library.Tiling

variable {α : Type} {raw : List α} {start stop : Nat}

def slice (raw : List α) (piece : Nat × Nat) : List α := (raw.drop piece.1).take piece.2

/-- Each slice starts where the one before it ends. -/
def Contiguous : Nat → List (Nat × Nat) → Nat → Prop
  | start, [], stop => start = stop
  | start, (offset, length) :: rest, stop => offset = start ∧ Contiguous (start + length) rest stop

/-- The slices follow each other from the start to the end, and join to the whole. -/
structure Tiles (raw : List α) (pieces : List (Nat × Nat)) : Prop where
  contiguous : Contiguous 0 pieces raw.length
  joined : (pieces.map (slice raw)).flatten = raw

theorem Contiguous.concat {pieces : List (Nat × Nat)} (h : Contiguous start pieces stop)
    (length : Nat) : Contiguous start (pieces ++ [(stop, length)]) (stop + length) := by
  induction pieces generalizing start with
  | nil =>
    obtain rfl : start = stop := h
    exact ⟨rfl, rfl⟩
  | cons piece rest ih => exact ⟨h.1, ih h.2⟩

theorem Contiguous.le {pieces : List (Nat × Nat)} (h : Contiguous start pieces stop) :
    start ≤ stop := by
  induction pieces generalizing start with
  | nil => exact Nat.le_of_eq h
  | cons piece rest ih => exact Nat.le_trans (Nat.le_add_right _ _) (ih h.2)

theorem Contiguous.joined {pieces : List (Nat × Nat)} (h : Contiguous start pieces stop) :
    (pieces.map (slice raw)).flatten = (raw.drop start).take (stop - start) := by
  induction pieces generalizing start with
  | nil =>
    obtain rfl : start = stop := h
    simp
  | cons piece rest ih =>
    obtain ⟨hoffset, hrest⟩ := h
    have hle := hrest.le
    have hlength : stop - start = piece.2 + (stop - (start + piece.2)) := by omega
    rw [List.map_cons, List.flatten_cons, ih hrest, slice, hoffset, hlength, List.take_add,
      List.drop_drop]

theorem Contiguous.tiles {pieces : List (Nat × Nat)} (h : Contiguous 0 pieces raw.length) :
    Tiles raw pieces where
  contiguous := h
  joined := by rw [h.joined, List.drop_zero, Nat.sub_zero, List.take_length]

end RetailPrintGuard.Library.Tiling

import Mathlib.Order.Basic
import RetailPrintGuard.Library.BoundedMemory

/-! # A sliding window over a bounded memory

What has happened is counted as long as it has not expired. The memory keeps the
last times only, and gives up the expired ones when it is read. -/
namespace RetailPrintGuard.Library.SlidingWindow
open RetailPrintGuard.Library.BoundedMemory

/-- What has expired stays expired, and so does all that is older. -/
structure Window (τ : Type) [Preorder τ] where
  expired : τ → τ → Bool
  later : ∀ {now now' time : τ}, now ≤ now' → expired now time = true → expired now' time = true
  older : ∀ {now time time' : τ}, time ≤ time' → expired now time' = true →
    expired now time = true

variable {τ : Type} [Preorder τ] (window : Window τ)

/-- The times that have not expired. -/
def recent (now : τ) (times : List τ) : List τ := times.filter fun time => !window.expired now time

def prune (now : τ) (times : List τ) : List τ := times.dropWhile (window.expired now)

/-- A memory of `size` times follows what was recorded up to `clock`: what it does
not hold has expired, or the memory is full. -/
structure Tracks (size : Nat) (clock : τ) (recorded memory : List τ) : Prop where
  ordered : recorded.Pairwise (· ≤ ·)
  past : ∀ time ∈ recorded, time ≤ clock
  held : ∃ forgotten, recorded = forgotten ++ memory ∧
    ((∀ time ∈ forgotten, window.expired clock time = true) ∨ memory.length = size)
  short : memory.length ≤ size

variable {window} {size limit : Nat} {clock now : τ} {recorded memory : List τ}

theorem tracks_nil (size : Nat) (clock : τ) : Tracks window size clock [] [] where
  ordered := .nil
  past := fun _ h => absurd h List.not_mem_nil
  held := ⟨[], rfl, Or.inl fun _ h => absurd h List.not_mem_nil⟩
  short := Nat.zero_le _

theorem Tracks.later (h : Tracks window size clock recorded memory) (hnow : clock ≤ now) :
    Tracks window size now recorded memory := by
  obtain ⟨forgotten, heq, hforgotten⟩ := h.held
  exact ⟨h.ordered, fun time hin => (h.past time hin).trans hnow,
    ⟨forgotten, heq, hforgotten.imp_left fun hall time hin => window.later hnow (hall time hin)⟩,
    h.short⟩

theorem Tracks.record (h : Tracks window size clock recorded memory) :
    Tracks window size clock (recorded ++ [clock]) (lastOf size (memory ++ [clock])) := by
  obtain ⟨forgotten, rfl, hforgotten⟩ := h.held
  have hlength : (memory ++ [clock]).length = memory.length + 1 := by simp
  refine ⟨?_, ?_, ?_, ?_⟩
  · rw [List.pairwise_append]
    exact ⟨h.ordered, List.pairwise_singleton _ _, fun time hin last hlast =>
      (h.past time hin).trans (le_of_eq (List.mem_singleton.mp hlast).symm)⟩
  · intro time hin
    obtain hin | hin := List.mem_append.mp hin
    · exact h.past time hin
    · exact le_of_eq (List.mem_singleton.mp hin)
  · refine ⟨forgotten ++ (memory ++ [clock]).take ((memory ++ [clock]).length - size), ?_, ?_⟩
    · rw [lastOf, List.append_assoc, List.append_assoc, List.take_append_drop]
    · rw [lastOf, List.length_drop, hlength]
      obtain hroom | hfull : memory.length + 1 ≤ size ∨ memory.length = size := by
        have hshort := h.short
        omega
      · rw [show memory.length + 1 - size = 0 by omega, List.take_zero, List.append_nil]
        exact Or.inl (hforgotten.resolve_right (by omega))
      · exact Or.inr (by omega)
  · rw [lastOf, List.length_drop]
    omega

/-- An old time that has not expired keeps all that is newer. -/
theorem prune_eq_self {time : τ} (hle : ∀ newer ∈ memory, time ≤ newer)
    (hfresh : window.expired now time = false) : prune window now memory = memory := by
  cases memory with
  | nil => rfl
  | cons first memory =>
    rw [prune, List.dropWhile_cons_of_neg]
    intro hexpired
    rw [window.older (hle first List.mem_cons_self) hexpired] at hfresh
    cases hfresh

/-- Of ordered times the expired ones come first. -/
theorem prune_eq_recent (h : memory.Pairwise (· ≤ ·)) :
    prune window now memory = recent window now memory := by
  induction memory with
  | nil => rfl
  | cons first memory ih =>
    obtain ⟨hfirst, hrest⟩ := List.pairwise_cons.mp h
    cases hexpired : window.expired now first with
    | true =>
      rw [prune, List.dropWhile_cons_of_pos hexpired, recent,
        List.filter_cons_of_neg (by simp [hexpired])]
      exact ih hrest
    | false =>
      rw [prune_eq_self (List.forall_mem_cons.mpr ⟨le_refl first, hfirst⟩) hexpired, recent,
        List.filter_eq_self.mpr]
      intro time hin
      obtain rfl | hin := List.mem_cons.mp hin
      · simp [hexpired]
      · cases hold : window.expired now time with
        | false => rfl
        | true =>
          rw [window.older (hfirst time hin) hold] at hexpired
          cases hexpired

/-- Nothing was forgotten that counts, or the memory is full of what counts. -/
theorem Tracks.prune_cases (h : Tracks window size clock recorded memory) :
    prune window clock memory = recent window clock recorded ∨
      (prune window clock memory = memory ∧ memory.length = size ∧
        size ≤ (recent window clock recorded).length) := by
  obtain ⟨forgotten, rfl, hforgotten⟩ := h.held
  obtain ⟨-, hordered, hcross⟩ := List.pairwise_append.mp h.ordered
  have hkept : SlidingWindow.prune window clock memory = recent window clock memory :=
    prune_eq_recent hordered
  have hsplit : recent window clock (forgotten ++ memory) =
      recent window clock forgotten ++ recent window clock memory := List.filter_append _ _
  by_cases hall : ∀ time ∈ forgotten, window.expired clock time = true
  · left
    have hnone : recent window clock forgotten = [] :=
      List.filter_eq_nil_iff.mpr fun time hin => by simp [hall time hin]
    rw [hkept, hsplit, hnone, List.nil_append]
  · obtain ⟨time, hall⟩ := not_forall.mp hall
    obtain ⟨hin, hfresh⟩ := Classical.not_imp.mp hall
    have hfull := hforgotten.resolve_left fun hexpired => hfresh (hexpired time hin)
    have hsame : SlidingWindow.prune window clock memory = memory :=
      prune_eq_self (hcross time hin) (Bool.not_eq_true _ ▸ hfresh)
    right
    refine ⟨hsame, hfull, ?_⟩
    rw [hsplit, ← hkept, hsame, List.length_append, hfull]
    exact Nat.le_add_left _ _

theorem Tracks.prune (h : Tracks window size clock recorded memory) :
    Tracks window size clock recorded (prune window clock memory) := by
  obtain heq | ⟨heq, -, -⟩ := h.prune_cases
  · refine ⟨h.ordered, h.past, ?_, ?_⟩
    · refine ⟨recorded.takeWhile (window.expired clock), ?_, Or.inl fun time hin => ?_⟩
      · rw [heq, ← prune_eq_recent h.ordered, SlidingWindow.prune, List.takeWhile_append_dropWhile]
      · exact List.all_eq_true.mp List.all_takeWhile time hin
    · exact Nat.le_trans (List.dropWhile_suffix _).length_le h.short
  · rw [heq]
    exact h

/-- A memory that holds at least `limit` times tells exactly when as many recorded ones count. -/
theorem Tracks.reached_iff (h : Tracks window size clock recorded memory) (hlimit : limit ≤ size) :
    limit ≤ (SlidingWindow.prune window clock memory).length ↔
      limit ≤ (recent window clock recorded).length := by
  obtain heq | ⟨heq, hfull, hmany⟩ := h.prune_cases
  · rw [heq]
  · rw [heq, hfull]
    exact iff_of_true hlimit (Nat.le_trans hlimit hmany)

end RetailPrintGuard.Library.SlidingWindow

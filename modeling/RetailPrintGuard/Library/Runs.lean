import Mathlib.Data.List.Basic

/-! # Runs of a deterministic system

A run is the fold of its steps. An invariant of the steps that meet a
condition holds in every state of a run whose steps all meet it. -/
namespace RetailPrintGuard.Library.Runs
variable {σ α : Type} {step : σ → α → σ} {ok : σ → α → Prop}

/-- Every step of the run meets the condition in the state it is taken in. -/
def AllSteps (step : σ → α → σ) (ok : σ → α → Prop) : σ → List α → Prop
  | _, [] => True
  | s, a :: as => ok s a ∧ AllSteps step ok (step s a) as

instance AllSteps.decidable [∀ s a, Decidable (ok s a)] :
    (s : σ) → (as : List α) → Decidable (AllSteps step ok s as)
  | _, [] => inferInstanceAs (Decidable True)
  | s, a :: as =>
    have := AllSteps.decidable (step s a) as
    inferInstanceAs (Decidable (ok s a ∧ AllSteps step ok (step s a) as))

theorem allSteps_append {s : σ} {as bs : List α} :
    AllSteps step ok s (as ++ bs) ↔ AllSteps step ok s as ∧ AllSteps step ok (as.foldl step s) bs := by
  induction as generalizing s with
  | nil => exact (and_iff_right trivial).symm
  | cons a as ih => exact (and_congr_right fun _ => ih).trans and_assoc.symm

/-- What every step preserves, every run preserves. -/
theorem invariant (I : σ → Prop) (hstep : ∀ s a, I s → I (step s a)) {s : σ} (hs : I s) (as : List α) :
    I (as.foldl step s) := by
  induction as generalizing s with
  | nil => exact hs
  | cons a as ih => exact ih (hstep s a hs)

theorem invariant_of_allSteps (I : σ → Prop) (hstep : ∀ s a, ok s a → I s → I (step s a)) {s : σ}
    (hs : I s) {as : List α} (h : AllSteps step ok s as) : I (as.foldl step s) := by
  induction as generalizing s with
  | nil => exact hs
  | cons a as ih => exact ih (hstep s a h.1 hs) h.2

/-! ## Steps over a list -/

/-- What the steps over the elements of a list preserve, the run over it preserves. -/
theorem invariant_of_mem (I : σ → Prop) {as : List α} (hstep : ∀ a ∈ as, ∀ s, I s → I (step s a)) {s : σ}
    (hs : I s) : I (as.foldl step s) := by
  induction as generalizing s with
  | nil => exact hs
  | cons a as ih =>
    exact ih (fun b hb => hstep b (List.mem_cons_of_mem _ hb)) (hstep a List.mem_cons_self s hs)

/-- A run that stops where a step fails. -/
theorem invariant_of_foldlM (I : σ → Prop) {attempt : σ → α → Option σ} {as : List α}
    (hstep : ∀ a ∈ as, ∀ s s', attempt s a = some s' → I s → I s') {s s' : σ} (hs : I s)
    (h : as.foldlM attempt s = some s') : I s' := by
  induction as generalizing s with
  | nil => exact Option.some.inj h ▸ hs
  | cons a as ih =>
    rw [List.foldlM_cons, Option.bind_eq_bind, Option.bind_eq_some_iff] at h
    obtain ⟨next, hnext, hrest⟩ := h
    exact ih (fun b hb => hstep b (List.mem_cons_of_mem _ hb))
      (hstep a List.mem_cons_self s next hnext hs) hrest

end RetailPrintGuard.Library.Runs

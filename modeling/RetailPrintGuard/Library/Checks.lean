import Mathlib.Data.List.Forall2

/-! # Checks that raise

A reader is a sequence of checks in `Except`, and it succeeds exactly when each
of them does. -/
namespace RetailPrintGuard.Library.Checks

variable {ε α β : Type}

def raiseIf (condition : Prop) [Decidable condition] (error : ε) : Except ε Unit :=
  if condition then .error error else .ok ()

theorem raiseIf_eq_ok {condition : Prop} [Decidable condition] {error : ε} {u : Unit} :
    raiseIf condition error = .ok u ↔ ¬condition := by
  unfold raiseIf
  split <;> simp [*]

theorem bind_eq_ok {x : Except ε α} {f : α → Except ε β} {b : β} :
    (x >>= f) = .ok b ↔ ∃ a, x = .ok a ∧ f a = .ok b := by
  cases x with
  | error e => simp [bind, Except.bind]
  | ok a => simp [bind, Except.bind]

theorem map_eq_ok {x : Except ε α} {f : α → β} {b : β} :
    x.map f = .ok b ↔ ∃ a, x = .ok a ∧ f a = b := by
  cases x with
  | error e => simp [Except.map]
  | ok a => simp [Except.map]

theorem mapError_eq_ok {ε' : Type} {x : Except ε α} {f : ε → ε'} {a : α} :
    x.mapError f = .ok a ↔ x = .ok a := by
  cases x <;> simp [Except.mapError]

theorem ok_bind {a : α} {f : α → Except ε β} : (Except.ok a >>= f) = f a := rfl

theorem pure_eq_ok {a b : α} : (pure a : Except ε α) = .ok b ↔ a = b := by
  simp [pure, Except.pure]

/-! ## Checks that return -/

/-- The check returns, whatever its result is. -/
def Returns (x : Except ε α) : Prop := ∃ a, x = .ok a

theorem returns_ok (a : α) : Returns (.ok a : Except ε α) := ⟨a, rfl⟩

theorem not_returns_error (e : ε) : ¬ Returns (.error e : Except ε α) := fun ⟨_, h⟩ => by cases h

theorem returns_pure (a : α) : Returns (pure a : Except ε α) := ⟨a, rfl⟩

theorem returns_bind {x : Except ε α} {f : α → Except ε β} :
    Returns (x >>= f) ↔ ∃ a, x = .ok a ∧ Returns (f a) := by
  unfold Returns
  simp only [bind_eq_ok]
  exact ⟨fun ⟨b, a, ha, hb⟩ => ⟨a, ha, b, hb⟩, fun ⟨a, ha, b, hb⟩ => ⟨b, a, ha, hb⟩⟩

/-- A step of a check whose result only decides what is computed from it. -/
theorem returns_map {x : Except ε α} {f : α → β} : Returns (x.map f) ↔ Returns x := by
  cases x with
  | error e => exact ⟨fun h => absurd h (not_returns_error e), fun h => absurd h (not_returns_error e)⟩
  | ok a => exact ⟨fun _ => returns_ok a, fun _ => returns_ok _⟩

/-- Checking every value gives one result for each. -/
theorem mapM_eq_ok {f : α → Except ε β} {as : List α} {bs : List β} :
    as.mapM f = .ok bs ↔ List.Forall₂ (fun a b => f a = .ok b) as bs := by
  induction as generalizing bs with
  | nil =>
    rw [List.mapM_nil, pure_eq_ok]
    constructor
    · rintro rfl
      exact .nil
    · intro h
      cases h
      rfl
  | cons a as ih =>
    simp only [List.mapM_cons, bind_eq_ok, pure_eq_ok]
    constructor
    · rintro ⟨b, ha, bs, has, rfl⟩
      exact .cons ha (ih.mp has)
    · intro h
      cases h with
      | cons ha has => exact ⟨_, ha, _, ih.mpr has, rfl⟩

theorem forall₂_mem_right {R : α → β → Prop} {as : List α} {bs : List β} {b : β}
    (h : List.Forall₂ R as bs) (hin : b ∈ bs) : ∃ a ∈ as, R a b := by
  induction h with
  | nil => cases hin
  | cons hab _ ih =>
    rcases List.mem_cons.mp hin with rfl | hin
    · exact ⟨_, List.mem_cons_self, hab⟩
    · obtain ⟨a, ha, hrel⟩ := ih hin
      exact ⟨a, List.mem_cons_of_mem _ ha, hrel⟩

theorem forall₂_mem_left {R : α → β → Prop} {as : List α} {bs : List β} {a : α}
    (h : List.Forall₂ R as bs) (hin : a ∈ as) : ∃ b ∈ bs, R a b :=
  forall₂_mem_right h.flip hin

theorem map_eq_of_forall₂ {γ : Type} {R : α → β → Prop} {f : α → γ} {g : β → γ} {as : List α}
    {bs : List β} (h : List.Forall₂ R as bs) (heq : ∀ a b, R a b → g b = f a) :
    bs.map g = as.map f := by
  induction h with
  | nil => rfl
  | cons hab _ ih => rw [List.map_cons, List.map_cons, heq _ _ hab, ih]

/-- A run of checks follows an abstract run when each of its steps does. -/
theorem refines_foldlM {σ τ : Type} {step : σ → α → Except ε σ} {next : τ → α → τ}
    {R : σ → τ → Prop} (hstep : ∀ s t a s', R s t → step s a = .ok s' → R s' (next t a)) :
    ∀ {as : List α} {s s' : σ} {t : τ}, R s t → as.foldlM step s = .ok s' →
      R s' (as.foldl next t) := by
  intro as
  induction as with
  | nil =>
    intro s s' t h hrun
    obtain rfl := pure_eq_ok.mp hrun
    exact h
  | cons a as ih =>
    intro s s' t h hrun
    rw [List.foldlM_cons] at hrun
    obtain ⟨mid, hmid, hrun⟩ := bind_eq_ok.mp hrun
    exact ih (hstep s t a mid h hmid) hrun

/-! ## Checks that never raise an error -/

/-- The check raises other errors at most. -/
def Never (e : ε) (x : Except ε α) : Prop := x ≠ .error e

theorem never_ok (e : ε) (a : α) : Never e (.ok a) := fun h => by cases h

theorem never_pure (e : ε) (a : α) : Never e (pure a : Except ε α) := never_ok e a

theorem never_bind {e : ε} {x : Except ε α} {f : α → Except ε β} (hx : Never e x)
    (hf : ∀ a, x = .ok a → Never e (f a)) : Never e (x >>= f) := by
  cases x with
  | error e' => exact fun h => hx (congrArg Except.error (Except.error.inj h))
  | ok a => exact hf a rfl

theorem never_map {e : ε} {x : Except ε α} {f : α → β} (hx : Never e x) : Never e (x.map f) := by
  cases x with
  | error e' => exact fun h => hx (congrArg Except.error (Except.error.inj h))
  | ok a => exact never_ok e _

theorem never_mapM {e : ε} {f : α → Except ε β} {as : List α} (h : ∀ a ∈ as, Never e (f a)) :
    Never e (as.mapM f) := by
  induction as with
  | nil => exact never_pure e []
  | cons a as ih =>
    rw [List.mapM_cons]
    exact never_bind (h a List.mem_cons_self) fun _ _ =>
      never_bind (ih fun a ha => h a (List.mem_cons_of_mem _ ha)) fun _ _ => never_pure e _

end RetailPrintGuard.Library.Checks

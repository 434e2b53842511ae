import RetailPrintGuard.Library.Runs

/-! # Calls that are done once

A run makes keyed calls in order. The step of a call gets it done and the steps
of calls with other keys leave it done: at the end of the run all its calls are
done. A call that is idle changes nothing, and is idle until it is made. -/
namespace RetailPrintGuard.Library.Settling
open RetailPrintGuard.Library.Runs
variable {σ α β κ : Type}

structure Settles (inv : σ → Prop) (step : σ → α → σ) (key : α → κ) (done : σ → α → Prop) : Prop where
  keeps : ∀ s a, inv s → inv (step s a)
  settles : ∀ s a, inv s → done (step s a) a
  other : ∀ s a b, inv s → key a ≠ key b → done s b → done (step s a) b

structure Rests (inv : σ → Prop) (step : σ → α → σ) (key : α → κ) (idle : σ → α → Prop) : Prop where
  keeps : ∀ s a, inv s → inv (step s a)
  other : ∀ s a b, inv s → key a ≠ key b → idle s b → idle (step s a) b
  rest : ∀ s a, idle s a → step s a = s

/-- No two calls share a key. -/
def UniqueKeys (key : α → κ) (calls : List α) : Prop :=
  ∀ a ∈ calls, ∀ b ∈ calls, key a = key b → a = b

section
variable {inv : σ → Prop} {step : σ → α → σ} {key : α → κ} {done idle : σ → α → Prop}
variable {s : σ} {calls : List α}

/-- A call stays done under calls that are of other keys, or the call itself. -/
theorem Settles.stays (h : Settles inv step key done) (hs : inv s) {a : α} (hdone : done s a)
    (hkeys : ∀ b ∈ calls, key b = key a → b = a) : done (calls.foldl step s) a := by
  refine (invariant_of_mem (fun s => inv s ∧ done s a) (fun b hb s hs => ?_) ⟨hs, hdone⟩).2
  refine ⟨h.keeps s b hs.1, ?_⟩
  by_cases hkey : key b = key a
  · obtain rfl := hkeys b hb hkey
    exact h.settles s b hs.1
  · exact h.other s b a hs.1 hkey hs.2

/-- At the end of a run all its calls are done. -/
theorem Settles.run (h : Settles inv step key done) (hs : inv s) (hkeys : UniqueKeys key calls) :
    ∀ a ∈ calls, done (calls.foldl step s) a := by
  induction calls generalizing s with
  | nil => simp
  | cons b calls ih =>
    intro a ha
    obtain rfl | ha := List.mem_cons.mp ha
    · exact h.stays (h.keeps s a hs) (h.settles s a hs) fun b hb hkey =>
        hkeys b (List.mem_cons_of_mem _ hb) a List.mem_cons_self hkey
    · exact ih (h.keeps s b hs) (fun a ha c hc =>
        hkeys a (List.mem_cons_of_mem _ ha) c (List.mem_cons_of_mem _ hc)) a ha

/-- Calls that are idle may be left out. -/
theorem Rests.leave_out (h : Rests inv step key idle) (hs : inv s) (p : α → Bool)
    (hidle : ∀ a ∈ calls, p a = true → idle s a)
    (hkeys : ∀ a ∈ calls, ∀ b ∈ calls, p a = true → p b = false → key b ≠ key a) :
    calls.foldl step s = (calls.filter fun a => !p a).foldl step s := by
  induction calls generalizing s with
  | nil => rfl
  | cons b calls ih =>
    have hkeys' : ∀ a ∈ calls, ∀ c ∈ calls, p a = true → p c = false → key c ≠ key a :=
      fun a ha c hc => hkeys a (List.mem_cons_of_mem _ ha) c (List.mem_cons_of_mem _ hc)
    cases hp : p b with
    | true =>
      rw [List.foldl_cons, h.rest s b (hidle b List.mem_cons_self hp)]
      simpa [hp] using ih hs (fun a ha => hidle a (List.mem_cons_of_mem _ ha)) hkeys'
    | false =>
      have hstays : ∀ a ∈ calls, p a = true → idle (step s b) a := fun a ha hpa =>
        h.other s b a hs (hkeys a (List.mem_cons_of_mem _ ha) b List.mem_cons_self hpa hp)
          (hidle a (List.mem_cons_of_mem _ ha) hpa)
      simpa [hp] using ih (h.keeps s b hs) hstays hkeys'

/-- A run of calls that are all idle changes nothing. -/
theorem Rests.run_of_idle (h : Rests inv step key idle) (hidle : ∀ a ∈ calls, idle s a) :
    calls.foldl step s = s :=
  invariant_of_mem (· = s) (fun a ha _ ht => ht ▸ h.rest s a (hidle a ha)) rfl

end

/-- Steps over a list that are planned ahead, and may all be refused: the run of
all that is planned. -/
theorem foldlM_planned {step : σ → α → σ} {plan : β → Option (List α)} (bs : List β) (s : σ) :
    bs.foldlM (fun s b => (plan b).map fun calls => calls.foldl step s) s =
      if bs.all fun b => (plan b).isSome then
        some ((bs.flatMap fun b => (plan b).getD []).foldl step s)
      else none := by
  induction bs generalizing s with
  | nil => rfl
  | cons b bs ih =>
    rw [List.foldlM_cons]
    cases hplan : plan b with
    | none => simp [hplan]
    | some calls =>
      have hrest := ih (calls.foldl step s)
      simp only [Option.map_some, Option.bind_eq_bind, Option.bind_some, hrest]
      simp [hplan]

end RetailPrintGuard.Library.Settling

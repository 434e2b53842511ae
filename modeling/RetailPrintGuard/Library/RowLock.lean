import Mathlib.Data.List.Basic
import Mathlib.Logic.Function.Basic

/-! # Transactions under a row lock

Each transaction reads one row with a lock, computes what it writes from the
value it read, and commits or aborts. A row that is missing cannot be locked:
the transactions that miss it insert it, and its key lets one of them do so. -/
namespace RetailPrintGuard.Library.RowLock
variable {ι V ρ : Type}

/-! ## The log -/

structure Commit (ι V ρ : Type) where
  transaction : ι
  before : V
  record : ρ
  after : V

/-- Every transaction of the log worked on what the one before it wrote. -/
def Serial (work : ι → V → ρ × V) : V → List (Commit ι V ρ) → Prop
  | _, [] => True
  | value, c :: rest =>
    c.before = value ∧ (c.record, c.after) = work c.transaction value ∧ Serial work c.after rest

/-- What the last transaction of the log wrote. -/
def final : V → List (Commit ι V ρ) → V
  | value, [] => value
  | _, c :: rest => final c.after rest

theorem final_append {value : V} {c : Commit ι V ρ} {log : List (Commit ι V ρ)} :
    final value (log ++ [c]) = c.after := by
  induction log generalizing value with
  | nil => rfl
  | cons d log ih => exact ih

theorem Serial.append {work : ι → V → ρ × V} {value : V} {c : Commit ι V ρ}
    {log : List (Commit ι V ρ)} (h : Serial work value log) (hbefore : c.before = final value log)
    (hwork : (c.record, c.after) = work c.transaction c.before) :
    Serial work value (log ++ [c]) := by
  induction log generalizing value with
  | nil => exact ⟨hbefore, hwork.trans (congrArg _ hbefore), trivial⟩
  | cons d log ih => exact ⟨h.1, h.2.1, ih h.2.2 hbefore⟩

/-! ## The transactions -/

inductive Phase (V ρ : Type) where
  | idle
  /-- read that there is no row -/
  | missed
  /-- holds the row, and read this value of it -/
  | holding (value : V)
  /-- wrote a record and the next value -/
  | written (value : V) (record : ρ) (next : V)
  | ended

structure State (ι V ρ : Type) where
  row : Option V
  /-- the committed transactions, in order -/
  log : List (Commit ι V ρ) := []
  /-- the transaction that has the row locked, or an insert of it pending -/
  holder : Option ι := none
  phase : ι → Phase V ρ := fun _ => .idle

variable [DecidableEq ι]

namespace State

def set (s : State ι V ρ) (i : ι) (phase : Phase V ρ) : State ι V ρ :=
  { s with phase := Function.update s.phase i phase }

/-- A transaction gets the row. -/
def hold (s : State ι V ρ) (i : ι) (value : V) : State ι V ρ :=
  { s.set i (.holding value) with holder := some i }

/-- A transaction ends, and its lock with it. -/
def release (s : State ι V ρ) (i : ι) : State ι V ρ :=
  { s.set i .ended with holder := if s.holder = some i then none else s.holder }

def commit (s : State ι V ρ) (c : Commit ι V ρ) : State ι V ρ :=
  { s.release c.transaction with row := some c.after, log := s.log ++ [c] }

end State

section
variable (initial : V) (work : ι → V → ρ × V)

inductive Step : State ι V ρ → State ι V ρ → Prop
  | lock {s : State ι V ρ} (i : ι) (value : V) (hphase : s.phase i = .idle)
      (hfree : s.holder = none) (hrow : s.row = some value) : Step s (s.hold i value)
  | miss {s : State ι V ρ} (i : ι) (hphase : s.phase i = .idle) (hrow : s.row = none) :
      Step s (s.set i .missed)
  | insert {s : State ι V ρ} (i : ι) (hphase : s.phase i = .missed) (hfree : s.holder = none)
      (hrow : s.row = none) : Step s (s.hold i initial)
  /-- another transaction inserted the row first -/
  | duplicate {s : State ι V ρ} (i : ι) (hphase : s.phase i = .missed) (hrow : s.row ≠ none) :
      Step s (s.set i .ended)
  | write {s : State ι V ρ} (i : ι) (value : V) (hphase : s.phase i = .holding value) :
      Step s (s.set i (.written value (work i value).1 (work i value).2))
  | commit {s : State ι V ρ} (i : ι) (value next : V) (record : ρ)
      (hphase : s.phase i = .written value record next) :
      Step s (s.commit ⟨i, value, record, next⟩)
  | abort {s : State ι V ρ} (i : ι) : Step s (s.release i)

/-- The states the transactions reach from a row. -/
inductive Reachable (row : Option V) : State ι V ρ → Prop
  | start : Reachable row { row }
  | step {s t : State ι V ρ} (h : Reachable row s) (hstep : Step initial work s t) : Reachable row t

/-! ## What holds in every interleaving -/

/-- A transaction that has the row read its last committed value. -/
def Fresh (s : State ι V ρ) (i : ι) : Prop :=
  match s.phase i with
  | .holding value => s.holder = some i ∧ value = s.row.getD initial
  | .written value record next =>
    s.holder = some i ∧ value = s.row.getD initial ∧ (record, next) = work i value
  | _ => s.holder ≠ some i

structure Invariant (row : Option V) (s : State ι V ρ) : Prop where
  serial : Serial work (row.getD initial) s.log
  untouched : s.log = [] → s.row = row
  moved : s.log ≠ [] → s.row = some (final (row.getD initial) s.log)
  fresh : ∀ i, Fresh initial work s i

end

section
variable {initial : V} {work : ι → V → ρ × V} {row : Option V} {s t : State ι V ρ}

omit [DecidableEq ι] in
/-- A transaction that does not move stays fresh. -/
theorem Fresh.other {j : ι} (hj : Fresh initial work s j) (hphase : t.phase j = s.phase j)
    (hholder : t.holder = some j ↔ s.holder = some j) (hrow : s.holder = some j → t.row = s.row) :
    Fresh initial work t j := by
  unfold Fresh at hj ⊢
  rw [hphase]
  split
  · next value heq =>
    rw [heq] at hj
    rw [hrow hj.1]
    exact ⟨hholder.mpr hj.1, hj.2⟩
  · next value record next heq =>
    rw [heq] at hj
    rw [hrow hj.1]
    exact ⟨hholder.mpr hj.1, hj.2⟩
  · next hholding hwritten =>
    split at hj
    · next value heq => exact absurd heq (hholding value)
    · next value record next heq => exact absurd heq (hwritten value record next)
    · exact fun h => hj (hholder.mp h)

omit [DecidableEq ι] in
/-- The row is what the last transaction of the log wrote. -/
theorem Invariant.current (hs : Invariant initial work row s) :
    s.row.getD initial = final (row.getD initial) s.log := by
  by_cases h : s.log = []
  · rw [hs.untouched h, h]
    rfl
  · rw [hs.moved h]
    rfl

/-- A transaction that moves and commits nothing. -/
theorem Invariant.move (hs : Invariant initial work row s) {i : ι} {phase : Phase V ρ}
    {holder : Option ι} (hholder : ∀ j ≠ i, holder = some j ↔ s.holder = some j)
    (hi : Fresh initial work { s.set i phase with holder } i) :
    Invariant initial work row { s.set i phase with holder } where
  serial := hs.serial
  untouched := hs.untouched
  moved := hs.moved
  fresh j := by
    by_cases h : j = i
    · rw [h]
      exact hi
    · exact (hs.fresh j).other (Function.update_of_ne h _ _) (hholder j h) fun _ => rfl

omit [DecidableEq ι] in
theorem idle_unheld (hs : Invariant initial work row s) {i : ι}
    (hphase : s.phase i = .idle ∨ s.phase i = .missed ∨ s.phase i = .ended) :
    s.holder ≠ some i := by
  have hi := hs.fresh i
  unfold Fresh at hi
  rcases hphase with h | h | h <;> rw [h] at hi <;> exact hi

theorem Invariant.hold (hs : Invariant initial work row s) {i : ι} {value : V}
    (hfree : s.holder = none) (hvalue : value = s.row.getD initial) :
    Invariant initial work row (s.hold i value) := by
  refine hs.move (fun j hj => ?_) ?_
  · rw [hfree]
    exact iff_of_false (fun h => hj (Option.some.inj h).symm) (by simp)
  · unfold Fresh
    simp [State.set, hvalue]

theorem Invariant.commit (hs : Invariant initial work row s) {i : ι} {value next : V} {record : ρ}
    (hphase : s.phase i = .written value record next) :
    Invariant initial work row (s.commit ⟨i, value, record, next⟩) := by
  have hi := hs.fresh i
  unfold Fresh at hi
  rw [hphase] at hi
  obtain ⟨hholder, hvalue, hwork⟩ := hi
  refine ⟨hs.serial.append (hvalue.trans hs.current) hwork,
    fun h => absurd (List.append_eq_nil_iff.mp h).2 (List.cons_ne_nil _ _),
    fun _ => congrArg some final_append.symm, fun j => ?_⟩
  by_cases h : j = i
  · subst h
    unfold Fresh
    simp [State.commit, State.release, State.set, hholder]
  · refine (hs.fresh j).other (Function.update_of_ne h _ _) ?_ fun hj => ?_
    · simp [State.commit, State.release, hholder, Ne.symm h]
    · rw [hholder] at hj
      exact absurd (Option.some.inj hj).symm h

theorem Invariant.step (hs : Invariant initial work row s) (h : Step initial work s t) :
    Invariant initial work row t := by
  cases h with
  | lock i value hphase hfree hrow => exact hs.hold hfree (by rw [hrow]; rfl)
  | insert i hphase hfree hrow => exact hs.hold hfree (by rw [hrow]; rfl)
  | miss i hphase hrow =>
    refine hs.move (fun _ _ => Iff.rfl) ?_
    unfold Fresh
    simpa [State.set] using idle_unheld hs (.inl hphase)
  | duplicate i hphase hrow =>
    refine hs.move (fun _ _ => Iff.rfl) ?_
    unfold Fresh
    simpa [State.set] using idle_unheld hs (.inr (.inl hphase))
  | write i value hphase =>
    have hi := hs.fresh i
    unfold Fresh at hi
    rw [hphase] at hi
    refine hs.move (fun _ _ => Iff.rfl) ?_
    unfold Fresh
    simpa [State.set] using hi
  | commit i value next record hphase => exact hs.commit hphase
  | abort i =>
    refine hs.move (fun j hj => ?_) ?_
    · split
      · next hheld =>
        rw [hheld]
        exact iff_of_false (by simp) fun h => hj (Option.some.inj h).symm
      · rfl
    · unfold Fresh
      simp only [State.set, Function.update_self]
      split <;> simp_all

/-- The log is serial in every interleaving, and the row is what its last
transaction wrote. -/
theorem invariant_of_reachable (h : Reachable initial work row s) :
    Invariant initial work row s := by
  induction h with
  | start =>
    refine ⟨trivial, fun _ => rfl, fun h => absurd rfl h, fun i => ?_⟩
    unfold Fresh
    simp
  | step _ hstep ih => exact ih.step hstep

/-- A transaction that no other one is in the way of. -/
theorem Reachable.turn (h : Reachable initial work row s) {i : ι} (hphase : s.phase i = .idle)
    (hfree : s.holder = none) :
    ∃ t : State ι V ρ, Reachable initial work row t ∧ t.holder = none ∧
      t.row = some (work i (s.row.getD initial)).2 ∧
      t.log = s.log ++ [⟨i, s.row.getD initial, (work i (s.row.getD initial)).1,
        (work i (s.row.getD initial)).2⟩] ∧ ∀ j ≠ i, t.phase j = s.phase j := by
  have hhold : Reachable initial work row (s.hold i (s.row.getD initial)) ∨
      Reachable initial work row ((s.set i .missed).hold i (s.row.getD initial)) := by
    cases hrow : s.row with
    | some value => exact .inl (h.step (.lock i value hphase hfree hrow))
    | none =>
      have hmissed := h.step (.miss i hphase hrow)
      exact .inr (hmissed.step (.insert i (Function.update_self _ _ _) hfree hrow))
  rcases hhold with hhold | hhold
  all_goals
    have hwritten := hhold.step (.write i (s.row.getD initial) (Function.update_self _ _ _))
    refine ⟨_, hwritten.step (.commit i _ _ _ (Function.update_self _ _ _)), ?_, rfl, rfl, ?_⟩
    · simp [State.commit, State.release, State.hold, State.set]
    · intro j hj
      simp [State.commit, State.release, State.hold, State.set, hj]

end

end RetailPrintGuard.Library.RowLock

import Mathlib.Data.Fintype.Basic
import Mathlib.Logic.Function.Basic
import RetailPrintGuard.Library.Runs

/-! # Failed logins

Each failed call of `authenticate` is a transaction that reads the user without
a lock, verifies the password, and writes what it made of the user it read. -/
namespace RetailPrintGuard.Db.Login
open RetailPrintGuard.Library.Runs

/-- What `authenticate` reads and writes of a `User`. -/
structure User where
  active : Bool := true
  failedLoginCount : Nat := 0
  /-- microseconds -/
  lockedUntil : Option Int := none
deriving DecidableEq

/-- `timedelta(minutes=5)` -/
def lockMicros : Int := 5 * 60 * 1000000

/-- The password is verified: the user is active and not locked. -/
def admitted (user : User) (now : Int) : Bool :=
  user.active && !user.lockedUntil.any fun lockedUntil => now < lockedUntil

/-- What a failed attempt changes, after the user it read: the counter, and the
lock where the counter reaches five. The columns it leaves keep their values. -/
def failedAttempt (seen : User) (now : Int) (user : User) : User :=
  let failedLoginCount := seen.failedLoginCount + 1
  { user with
    failedLoginCount
    lockedUntil := if 5 ≤ failedLoginCount then some (now + lockMicros) else user.lockedUntil }

inductive Phase where
  | idle
  /-- returned without a look at the password -/
  | refused
  | read (user : User)
  /-- the password is wrong -/
  | failed (user : User)
  /-- the row is updated, and locked until the commit -/
  | updated (user : User)
  | ended
deriving DecidableEq

def Phase.inFlight : Phase → Bool
  | .read _ | .failed _ | .updated _ => true
  | .idle | .refused | .ended => false

section
variable {ι : Type} [DecidableEq ι]

structure State (ι : Type) where
  user : User
  phase : ι → Phase := fun _ => .idle
  /-- the attempt whose update waits for its commit -/
  holder : Option ι := none
  /-- the passwords that were verified and found wrong -/
  failures : Nat := 0
  /-- the attempts that committed -/
  committed : Nat := 0

def State.set (s : State ι) (i : ι) (phase : Phase) : State ι :=
  { s with phase := Function.update s.phase i phase }

inductive Action (ι : Type) where
  | read (i : ι)
  | verify (i : ι)
  | update (i : ι)
  | commit (i : ι)

/-- One step of an attempt; nothing where it is not its turn. -/
def step (now : ι → Int) (s : State ι) : Action ι → State ι
  | .read i =>
    match s.phase i with
    | .idle => s.set i (if admitted s.user (now i) then .read s.user else .refused)
    | _ => s
  | .verify i =>
    match s.phase i with
    | .read user => { s.set i (.failed user) with failures := s.failures + 1 }
    | _ => s
  | .update i =>
    match s.phase i, s.holder with
    | .failed user, none => { s.set i (.updated user) with holder := some i }
    | _, _ => s
  | .commit i =>
    match s.phase i with
    | .updated user =>
      { s.set i .ended with
        user := failedAttempt user (now i) s.user
        holder := none
        committed := s.committed + 1 }
    | _ => s

/-- An attempt reads the user while no other one is between its read and its
commit. -/
def Alone (s : State ι) : Action ι → Prop
  | .read _ => ∀ j, (s.phase j).inFlight = false
  | _ => True

instance [Fintype ι] (s : State ι) : (action : Action ι) → Decidable (Alone s action)
  | .read _ => inferInstanceAs (Decidable (∀ j, (s.phase j).inFlight = false))
  | .verify _ | .update _ | .commit _ => isTrue trivial

/-- A lock that was set since the start has not expired when an attempt reads it. -/
def Lasting (now : ι → Int) (start : User) (s : State ι) : Action ι → Prop
  | .read i => s.user.lockedUntil = start.lockedUntil ∨ ∃ t ∈ s.user.lockedUntil, now i < t
  | _ => True

instance (now : ι → Int) (start : User) (s : State ι) :
    (action : Action ι) → Decidable (Lasting now start s action)
  | .read _ => inferInstanceAs (Decidable (_ ∨ _))
  | .verify _ | .update _ | .commit _ => isTrue trivial

/-- No attempt is lost from the counter, and as long as no lock is set no more
passwords are verified than the counter has left up to five. -/
structure Counted (start : User) (s : State ι) : Prop where
  counter : s.user.failedLoginCount = start.failedLoginCount + s.committed
  bound : s.user.lockedUntil = start.lockedUntil → s.failures ≤ max 1 (5 - start.failedLoginCount)

/-! ## Attempts one after the other -/

/-- The others stand still. -/
def Still (s : State ι) (i : ι) : Prop := ∀ j ≠ i, (s.phase j).inFlight = false

/-- One attempt at most is in flight, and it read the user as it is. -/
inductive Turn (start : User) (s : State ι) : Prop
  | quiet (hstill : ∀ j, (s.phase j).inFlight = false) (hcount : s.failures = s.committed)
  | reading (i : ι) (hphase : s.phase i = .read s.user) (hstill : Still s i)
      (hopen : s.user.lockedUntil = start.lockedUntil) (hcount : s.failures = s.committed)
  | failing (i : ι) (hphase : s.phase i = .failed s.user ∨ s.phase i = .updated s.user)
      (hstill : Still s i) (hopen : s.user.lockedUntil = start.lockedUntil)
      (hcount : s.failures = s.committed + 1)

structure Invariant (start : User) (s : State ι) : Prop where
  /-- a lock is set once the counter is at five -/
  locks : s.user.lockedUntil = start.lockedUntil → s.user.failedLoginCount < 5 ∨ s.committed = 0
  counter : s.user.failedLoginCount = start.failedLoginCount + s.committed
  turn : Turn start s

end

section
variable {ι : Type} [DecidableEq ι] {now : ι → Int} {start : User} {s : State ι} {i : ι}

theorem Still.set (h : Still s i) (phase : Phase) : Still (s.set i phase) i := by
  intro j hj
  show (Function.update s.phase i phase j).inFlight = false
  rw [Function.update_of_ne hj]
  exact h j hj

/-- An attempt that is in flight is the one whose turn it is. -/
theorem Still.eq {j : ι} (h : Still s i) (hj : (s.phase j).inFlight = true) : j = i := by
  by_contra hne
  rw [h j hne] at hj
  cases hj

omit [DecidableEq ι] in
/-- An attempt that sets a lock sets a later one than the start had. -/
theorem lock_ne (hopen : admitted start (now i) = true) :
    some (now i + lockMicros) ≠ start.lockedUntil := by
  intro heq
  have hlater : now i < now i + lockMicros := by
    unfold lockMicros
    omega
  simp [admitted, ← heq, hlater] at hopen

theorem Invariant.step (hstart : ∀ i, admitted start (now i) = true) (hs : Invariant start s)
    {action : Action ι} (halone : Alone s action) (hlasting : Lasting now start s action) :
    Invariant start (step now s action) := by
  obtain ⟨hlocks, hcounter, hturn⟩ := hs
  cases action with
  | read i =>
    have hquiet : s.failures = s.committed := by
      cases hturn with
      | quiet _ hcount => exact hcount
      | reading j hphase =>
        have hj := halone j
        rw [hphase] at hj
        cases hj
      | failing j hphase =>
        have hj := halone j
        rcases hphase with hphase | hphase <;> rw [hphase] at hj <;> cases hj
    have hstill : Still s i := fun j _ => halone j
    unfold Login.step
    dsimp only
    split
    · by_cases hadmitted : admitted s.user (now i) = true
      · rw [if_pos hadmitted]
        have hopen : s.user.lockedUntil = start.lockedUntil := by
          obtain hsame | ⟨t, hlocked, hlast⟩ := hlasting
          · exact hsame
          · simp [admitted, Option.mem_def.mp hlocked, hlast] at hadmitted
        exact ⟨hlocks, hcounter, .reading i (Function.update_self _ _ _) (hstill.set _) hopen hquiet⟩
      · rw [if_neg hadmitted]
        refine ⟨hlocks, hcounter, .quiet (fun j => ?_) hquiet⟩
        by_cases hj : j = i
        · rw [hj]
          show (Function.update s.phase i .refused i).inFlight = false
          rw [Function.update_self]
          rfl
        · exact hstill.set _ j hj
    · exact ⟨hlocks, hcounter, .quiet halone hquiet⟩
  | verify i =>
    unfold Login.step
    dsimp only
    split
    · next user hread =>
      have hflight : (s.phase i).inFlight = true := by rw [hread]; rfl
      cases hturn with
      | quiet hstill =>
        rw [hstill i] at hflight
        cases hflight
      | reading j hphase hstill hopen hcount =>
        obtain rfl := hstill.eq hflight
        obtain rfl : user = s.user := by
          rw [hphase] at hread
          exact (Phase.read.inj hread).symm
        exact ⟨hlocks, hcounter, .failing i (.inl (Function.update_self _ _ _)) (hstill.set _) hopen
          (congrArg (· + 1) hcount)⟩
      | failing j hphase hstill =>
        obtain rfl := hstill.eq hflight
        rcases hphase with hphase | hphase <;> rw [hphase] at hread <;> cases hread
    · exact ⟨hlocks, hcounter, hturn⟩
  | update i =>
    unfold Login.step
    dsimp only
    split
    · next user hfailed _ =>
      have hflight : (s.phase i).inFlight = true := by rw [hfailed]; rfl
      cases hturn with
      | quiet hstill =>
        rw [hstill i] at hflight
        cases hflight
      | reading j hphase hstill =>
        obtain rfl := hstill.eq hflight
        rw [hphase] at hfailed
        cases hfailed
      | failing j hphase hstill hopen hcount =>
        obtain rfl := hstill.eq hflight
        obtain rfl : user = s.user := by
          rcases hphase with hphase | hphase <;> rw [hphase] at hfailed <;> cases hfailed
          rfl
        exact ⟨hlocks, hcounter, .failing i (.inr (Function.update_self _ _ _)) (hstill.set _) hopen
          hcount⟩
    · exact ⟨hlocks, hcounter, hturn⟩
  | commit i =>
    unfold Login.step
    dsimp only
    split
    · next user hupdated =>
      have hflight : (s.phase i).inFlight = true := by rw [hupdated]; rfl
      cases hturn with
      | quiet hstill =>
        rw [hstill i] at hflight
        cases hflight
      | reading j hphase hstill =>
        obtain rfl := hstill.eq hflight
        rw [hphase] at hupdated
        cases hupdated
      | failing j hphase hstill hopen hcount =>
        obtain rfl := hstill.eq hflight
        obtain rfl : user = s.user := by
          rcases hphase with hphase | hphase <;> rw [hphase] at hupdated <;> cases hupdated
          rfl
        refine ⟨fun hsame => ?_, ?_, .quiet (fun j => ?_) hcount⟩
        · have hsame : (if 5 ≤ s.user.failedLoginCount + 1 then some (now i + lockMicros)
              else s.user.lockedUntil) = start.lockedUntil := hsame
          split at hsame
          · exact absurd hsame (lock_ne (hstart i))
          · next hless => exact .inl (Nat.lt_of_not_le hless)
        · show s.user.failedLoginCount + 1 = _ + (s.committed + 1)
          omega
        · by_cases hj : j = i
          · rw [hj]
            show (Function.update s.phase i .ended i).inFlight = false
            rw [Function.update_self]
            rfl
          · exact hstill.set _ j hj
    · exact ⟨hlocks, hcounter, hturn⟩

omit [DecidableEq ι] in
theorem Invariant.counted (hs : Invariant start s) : Counted start s := by
  refine ⟨hs.counter, fun hopen => ?_⟩
  have hcounter := hs.counter
  have hcount := hs.locks hopen
  cases hs.turn with
  | quiet _ hfailures => omega
  | reading _ _ _ _ hfailures => omega
  | failing _ _ _ _ hfailures => omega

/-- Attempts that do not overlap are all counted, for a user that is active and
not locked when they begin, as long as no lock they set expires. -/
theorem attempts_counted (hopen : ∀ i, admitted start (now i) = true) {actions : List (Action ι)}
    (h : AllSteps (step now) (fun s action => Alone s action ∧ Lasting now start s action)
      { user := start } actions) :
    Counted start (actions.foldl (step now) { user := start }) := by
  have hstart : Invariant start ({ user := start } : State ι) :=
    ⟨fun _ => .inr rfl, rfl, .quiet (fun _ => rfl) rfl⟩
  exact (invariant_of_allSteps (Invariant start)
    (fun _ _ hstep hs => hs.step hopen hstep.1 hstep.2) hstart h).counted

end

/-! ## Six attempts at once -/

/-- Six attempts of one second. -/
def sixAtOnce : Fin 6 → Int := fun i => 1782900000000000 + 100000 * i

def inTurn : List (Action (Fin 6)) :=
  (List.finRange 6).flatMap fun i => [.read i, .verify i, .update i, .commit i]

/-- All of them read the user before one of them writes. -/
def overlapping : List (Action (Fin 6)) :=
  (List.finRange 6).map .read ++ (List.finRange 6).map .verify ++
    (List.finRange 6).flatMap fun i => [.update i, .commit i]

/-- One after the other the sixth one finds the account locked. -/
theorem inTurn_counted : Counted {} (inTurn.foldl (step sixAtOnce) { user := {} }) :=
  attempts_counted (by decide) (by decide)

/-- Six wrong passwords leave the account open and the counter at one. -/
theorem overlapping_lost :
    (overlapping.foldl (step sixAtOnce) { user := {} }).failures = 6 ∧
      (overlapping.foldl (step sixAtOnce) { user := {} }).user = { failedLoginCount := 1 } ∧
      ¬Counted {} (overlapping.foldl (step sixAtOnce) { user := {} }) := by
  refine ⟨by decide, by decide, fun h => ?_⟩
  exact absurd (h.bound (by decide)) (by decide)

end RetailPrintGuard.Db.Login

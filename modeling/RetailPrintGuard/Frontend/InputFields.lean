import RetailPrintGuard.Frontend.Period

/-! # Input fields in Rome time

What `utcFromRomeInput` reads and `romeInputFromUtc` shows of one minute. -/
namespace RetailPrintGuard.Frontend.InputFields
open RetailPrintGuard.Library.Checks RetailPrintGuard.Library.CivilDays RetailPrintGuard.Frontend.Period

/-! ## Reading and showing -/

/-- `String(number)` -/
def decimal (n : Int) : Text :=
  if n < 0 then '-' :: Nat.toDigits 10 n.natAbs else Nat.toDigits 10 n.natAbs

/-- `text.padStart(length, '0')` -/
def padStart (length : Nat) (text : Text) : Text := text.leftpad length '0'

/-- `Number(digits)` -/
def number (digits : Text) : Int := Nat.ofDigitChars 10 digits 0

/-- The groups of `/^(\d{4})-(\d{2})-(\d{2})T(\d{2}):(\d{2})$/`. -/
def readInput : Text → Option CalendarParts
  | [y₁, y₂, y₃, y₄, '-', m₁, m₂, '-', d₁, d₂, 'T', h₁, h₂, ':', n₁, n₂] =>
    if [y₁, y₂, y₃, y₄, m₁, m₂, d₁, d₂, h₁, h₂, n₁, n₂].all Char.isDigit then
      some { year := number [y₁, y₂, y₃, y₄], month := number [m₁, m₂], day := number [d₁, d₂],
             hour := number [h₁, h₂], minute := number [n₁, n₂] }
    else none
  | _ => none

/-- `utcFromRomeInput(value)`, where `none` is `undefined` -/
def utcFromRomeInput (zone : Zone) (value : Text) : Except String (Option Int) :=
  match readInput value with
  | none => .ok none
  | some value => do
    let utc ← toISOString (← zonedToUtc zone (some value))
    return some utc

/-- What follows the year in an input field. -/
def minuteText (value : CalendarParts) : Text :=
  let pad := fun part => padStart 2 (decimal part)
  '-' :: pad value.month ++ '-' :: pad value.day ++ 'T' :: pad value.hour ++ ':' :: pad value.minute

/-- `romeInputFromUtc(value)`; `none` is no text, or one of no time -/
def romeInputFromUtc (zone : Zone) (value : Time) : Text :=
  match newDate value with
  | none => []
  | some t => decimal (shown zone t).year ++ minuteText (shown zone t)

/-- The minute on the clock of Rome at an instant, as an input field holds it. -/
def inputText (zone : Zone) (t : Int) : Text :=
  padStart 4 (decimal (romeDate zone t).year) ++ minuteText (shown zone t)

/-- The minute on the clock of Rome at this instant is read and shown again. -/
def ComesBack (zone : Zone) (t : Int) : Prop :=
  ∃ utc, utcFromRomeInput zone (inputText zone t) = .ok (some utc) ∧
    romeInputFromUtc zone (some utc) = inputText zone t

variable {zone : Zone} {s t wallClock : Int}

/-! ## Numbers in an input field -/

theorem decimal_natCast (n : Nat) : decimal n = Nat.toDigits 10 n := by
  rw [decimal, if_neg (by omega), Int.natAbs_natCast]

theorem padStart_succ (length n : Nat) : padStart (length + 2) (Nat.toDigits 10 n) =
    padStart (length + 1) (Nat.toDigits 10 (n / 10)) ++ [(n % 10).digitChar] := by
  unfold padStart List.leftpad
  by_cases h : n < 10
  · rw [Nat.toDigits_of_lt_base h, Nat.div_eq_of_lt h, Nat.mod_eq_of_lt h,
      Nat.toDigits_of_lt_base (by decide)]
    show List.replicate (length + 1) '0' ++ _ = List.replicate length '0' ++ ['0'] ++ _
    rw [List.replicate_succ']
  · rw [Nat.toDigits_of_base_le (by decide) (Nat.not_lt.mp h), List.length_append,
      List.length_singleton, Nat.succ_sub_succ, List.append_assoc]

theorem padStart_one {n : Nat} (h : n < 10) : padStart 1 (Nat.toDigits 10 n) = [n.digitChar] := by
  rw [Nat.toDigits_of_lt_base h]
  rfl

theorem padStart_two {n : Nat} (h : n < 100) :
    padStart 2 (decimal n) = [(n / 10).digitChar, (n % 10).digitChar] := by
  rw [decimal_natCast, padStart_succ, padStart_one (by omega)]
  rfl

theorem padStart_four {n : Nat} (h : n < 10000) : padStart 4 (decimal n) =
    [(n / 10 / 10 / 10).digitChar, (n / 10 / 10 % 10).digitChar, (n / 10 % 10).digitChar,
      (n % 10).digitChar] := by
  rw [decimal_natCast, padStart_succ, padStart_succ, padStart_succ, padStart_one (by omega)]
  rfl

theorem number_two {n : Nat} (h : n < 100) : number [(n / 10).digitChar, (n % 10).digitChar] = n := by
  simp only [number, Nat.ofDigitChars, List.foldl_cons, List.foldl_nil,
    Nat.toNat_digitChar_of_lt_ten (show n / 10 < 10 by omega),
    Nat.toNat_digitChar_of_lt_ten (show n % 10 < 10 by omega)]
  show ((10 * (10 * 0 + (48 + n / 10 - 48)) + (48 + n % 10 - 48) : Nat) : Int) = n
  omega

theorem number_four {n : Nat} (h : n < 10000) :
    number [(n / 10 / 10 / 10).digitChar, (n / 10 / 10 % 10).digitChar, (n / 10 % 10).digitChar,
      (n % 10).digitChar] = n := by
  simp only [number, Nat.ofDigitChars, List.foldl_cons, List.foldl_nil,
    Nat.toNat_digitChar_of_lt_ten (show n / 10 / 10 / 10 < 10 by omega),
    Nat.toNat_digitChar_of_lt_ten (show n / 10 / 10 % 10 < 10 by omega),
    Nat.toNat_digitChar_of_lt_ten (show n / 10 % 10 < 10 by omega),
    Nat.toNat_digitChar_of_lt_ten (show n % 10 < 10 by omega)]
  show ((10 * (10 * (10 * (10 * 0 + (48 + n / 10 / 10 / 10 - 48)) + (48 + n / 10 / 10 % 10 - 48)) +
    (48 + n / 10 % 10 - 48)) + (48 + n % 10 - 48) : Nat) : Int) = n
  omega

/-- A number of two digits in an input field. -/
def TwoDigits (n : Int) : Prop := 0 ≤ n ∧ n < 100

theorem shown_ranges (zone : Zone) (t : Int) : TwoDigits (shown zone t).month ∧
    TwoDigits (shown zone t).day ∧ TwoDigits (shown zone t).hour ∧ TwoDigits (shown zone t).minute := by
  obtain ⟨hfirst, hlast, hday, hday'⟩ := civil_ranges (zone.clock t / dayMs)
  unfold TwoDigits
  simp only [shown, dayMs, hourMs, minuteMs] at *
  omega

/-- An input field of four digits for the year is read as the parts shown. -/
theorem readInput_inputText {year : Nat} (hyear : (romeDate zone t).year = year)
    (hlarge : year < 10000) :
    readInput (inputText zone t) = some { shown zone t with year := year } := by
  obtain ⟨hmonth, hday, hhour, hminute⟩ := shown_ranges zone t
  unfold inputText minuteText
  rw [hyear]
  generalize shown zone t = value at *
  obtain ⟨_, month, day, hour, minute⟩ := value
  obtain ⟨month, rfl⟩ := Int.eq_ofNat_of_zero_le hmonth.1
  obtain ⟨day, rfl⟩ := Int.eq_ofNat_of_zero_le hday.1
  obtain ⟨hour, rfl⟩ := Int.eq_ofNat_of_zero_le hhour.1
  obtain ⟨minute, rfl⟩ := Int.eq_ofNat_of_zero_le hminute.1
  have hmonth : month < 100 := Int.ofNat_lt.mp hmonth.2
  have hday : day < 100 := Int.ofNat_lt.mp hday.2
  have hhour : hour < 100 := Int.ofNat_lt.mp hhour.2
  have hminute : minute < 100 := Int.ofNat_lt.mp hminute.2
  dsimp only
  rw [padStart_four hlarge, padStart_two hmonth, padStart_two hday, padStart_two hhour,
    padStart_two hminute]
  have hdigit : ∀ n : Nat, n < 10 → n.digitChar.isDigit = true := fun n h => by
    rw [Nat.isDigit_digitChar, decide_eq_true h]
  simp only [List.cons_append, List.nil_append, readInput]
  rw [if_pos, number_four hlarge, number_two hmonth, number_two hday, number_two hhour,
    number_two hminute]
  simp only [List.all_cons, List.all_nil, Bool.and_true, Bool.and_eq_true]
  refine ⟨?_, ?_, ?_, ?_, ?_, ?_, ?_, ?_, ?_, ?_, ?_, ?_⟩ <;> exact hdigit _ (by omega)

theorem readInput_eq_some {text : Text} {value : CalendarParts} (h : readInput text = some value) :
    ∃ digits rest, text = digits ++ '-' :: rest ∧ digits.length = 4 ∧ ∀ c ∈ digits, c.isDigit = true := by
  unfold readInput at h
  split at h
  · next y₁ y₂ y₃ y₄ m₁ m₂ d₁ d₂ h₁ h₂ n₁ n₂ =>
    split at h
    · next hall =>
      refine ⟨[y₁, y₂, y₃, y₄], _, rfl, rfl, fun c hc => ?_⟩
      refine List.all_eq_true.mp hall c ?_
      exact (List.prefix_append [y₁, y₂, y₃, y₄] _).subset hc
    · cases h
  · cases h

/-- The digits a text begins with, up to a hyphen. -/
theorem digits_eq {digits digits' rest rest' : Text} (h : ∀ c ∈ digits, c.isDigit = true)
    (h' : ∀ c ∈ digits', c.isDigit = true)
    (heq : digits ++ '-' :: rest = digits' ++ '-' :: rest') : digits = digits' := by
  have htake : ∀ {ds r : Text}, (∀ c ∈ ds, c.isDigit = true) →
      (ds ++ '-' :: r).takeWhile Char.isDigit = ds := fun hds => by
    rw [List.takeWhile_append_of_pos hds, List.takeWhile_cons_of_neg (by decide), List.append_nil]
  rw [← htake h (r := rest), heq, htake h']

theorem isDigit_toDigits {n : Nat} : ∀ c ∈ Nat.toDigits 10 n, c.isDigit = true :=
  fun _ hc => Nat.isDigit_of_mem_toDigits (by decide) (by decide) hc

theorem isDigit_padStart {length : Nat} {digits : Text} (h : ∀ c ∈ digits, c.isDigit = true) :
    ∀ c ∈ padStart length digits, c.isDigit = true := by
  intro c hc
  rcases List.mem_append.mp hc with hc | hc
  · rw [List.eq_of_mem_replicate hc]
    decide
  · exact h c hc

/-- A year is read from its four digits only. -/
theorem year_of_read {year : Int} {rest : Text} {value : CalendarParts}
    (h : readInput (padStart 4 (decimal year) ++ '-' :: rest) = some value) :
    0 ≤ year ∧ year < 10000 := by
  obtain ⟨digits, rest', htext, hlength, hdigits⟩ := readInput_eq_some h
  by_cases hneg : year < 0
  · -- the sign stands among the first four characters
    have hpos : 1 ≤ (Nat.toDigits 10 year.natAbs).length := Nat.length_toDigits_pos
    rw [decimal, if_pos hneg, padStart, List.leftpad, List.append_assoc] at htext
    have hzeros := digits_eq (fun c hc => by rw [List.eq_of_mem_replicate hc]; decide) hdigits htext
    rw [← hzeros, List.length_replicate, List.length_cons] at hlength
    omega
  · obtain ⟨n, rfl⟩ := Int.eq_ofNat_of_zero_le (Int.not_lt.mp hneg)
    have hdecimal := digits_eq (isDigit_padStart isDigit_toDigits) hdigits
      (decimal_natCast n ▸ htext)
    have hlong : (Nat.toDigits 10 n).length ≤ 4 := by
      rw [← hlength, ← hdecimal, padStart, List.length_leftpad]
      exact Nat.le_max_right _ _
    have hsmall := (Nat.length_toDigits_le_iff (by decide) (by decide)).mp hlong
    exact ⟨Int.not_lt.mp hneg, Int.ofNat_lt.mpr hsmall⟩

theorem padStart_of_le {n : Nat} (h : 1000 ≤ n) : padStart 4 (decimal n) = decimal n := by
  have hlong : ¬(Nat.toDigits 10 n).length ≤ 3 := fun hshort =>
    absurd ((Nat.length_toDigits_le_iff (by decide) (by decide)).mp hshort) (by omega)
  rw [decimal_natCast, padStart, List.leftpad, Nat.sub_eq_zero_of_le (by omega), List.replicate_zero,
    List.nil_append]

/-! ## Minutes that come back -/

theorem shown_congr (h : zone.clock s = zone.clock t) : shown zone s = shown zone t := by
  unfold shown
  rw [h]

/-- The instant a minute begins at. -/
def minuteStart (t : Int) : Int := t - t % minuteMs

theorem clock_minuteStart (zone : Zone) (t : Int) :
    zone.clock (minuteStart t) = zone.clock t - zone.clock t % minuteMs := by
  have hoffset : zone.offset (minuteStart t) = zone.offset t := by
    apply zone.offset_eq
    simp only [minuteStart, minuteMs, hourMs, dayMs]
    omega
  rw [Zone.clock, hoffset, minuteStart]
  simp only [Zone.clock, minuteMs]
  omega

theorem shown_minuteStart (zone : Zone) (t : Int) : shown zone (minuteStart t) = shown zone t := by
  have hclock := clock_minuteStart zone t
  have hday : zone.clock (minuteStart t) / dayMs = zone.clock t / dayMs := by
    simp only [minuteMs, dayMs] at *
    omega
  have hhour : zone.clock (minuteStart t) % dayMs / hourMs = zone.clock t % dayMs / hourMs := by
    simp only [minuteMs, hourMs, dayMs] at *
    omega
  have hminute : zone.clock (minuteStart t) % hourMs / minuteMs =
      zone.clock t % hourMs / minuteMs := by
    simp only [minuteMs, hourMs] at *
    omega
  simp only [shown, hday, hhour, hminute]

/-- What comes back has a year of four digits, the first not zero. -/
theorem year_of_comesBack (h : ComesBack zone t) :
    1000 ≤ (romeDate zone t).year ∧ (romeDate zone t).year ≤ 9999 := by
  obtain ⟨utc, hutc, hback⟩ := h
  have hread : ∃ value, readInput (inputText zone t) = some value := by
    unfold utcFromRomeInput at hutc
    split at hutc
    · cases hutc
    · exact ⟨_, by assumption⟩
  obtain ⟨value, hvalue⟩ := hread
  obtain ⟨hyear, hsmall⟩ := year_of_read hvalue
  obtain ⟨n, hn⟩ := Int.eq_ofNat_of_zero_le hyear
  rw [hn] at hsmall ⊢
  have hsmall : n < 10000 := Int.ofNat_lt.mp hsmall
  rw [inputText, hn] at hback
  obtain ⟨shownYear, hshown⟩ : ∃ shownYear : Nat, padStart 4 (decimal n) = Nat.toDigits 10 shownYear := by
    unfold romeInputFromUtc at hback
    split at hback
    · rw [padStart_four hsmall] at hback
      cases hback
    · next instant _ =>
      obtain ⟨shownYear, hshown⟩ : ∃ shownYear : Nat, (shown zone instant).year = shownYear := by
        refine Int.eq_ofNat_of_zero_le ?_
        show 0 ≤ printedYear _
        unfold printedYear
        omega
      rw [hshown, decimal_natCast, decimal_natCast] at hback
      exact ⟨shownYear, by
        rw [decimal_natCast]
        exact (digits_eq isDigit_toDigits (isDigit_padStart isDigit_toDigits) hback).symm⟩
  have hyears : shownYear = n := by
    have hnumber := number_four hsmall
    rw [← padStart_four hsmall, hshown, number, Nat.ofDigitChars_ten_toDigits] at hnumber
    exact Int.ofNat_inj.mp hnumber
  have hlong : ¬(Nat.toDigits 10 n).length ≤ 3 := by
    rw [← hyears, ← hshown, padStart_four hsmall]
    exact Nat.not_succ_le_self 3
  rw [Nat.length_toDigits_le_iff (by decide) (by decide)] at hlong
  omega

theorem comesBack_of_year (hfirst : 1000 ≤ (romeDate zone t).year)
    (hlast : (romeDate zone t).year ≤ 9999) : ComesBack zone t := by
  obtain ⟨n, hn⟩ := Int.eq_ofNat_of_zero_le (show 0 ≤ (romeDate zone t).year by omega)
  have hyear : (shown zone t).year = n := by
    show printedYear (romeDate zone t).year = n
    unfold printedYear
    omega
  have hread : readInput (inputText zone t) = some (shown zone t) := by
    rw [readInput_inputText hn (by omega), ← hyear]
  -- the wall clock lies well inside of the range of a `Date`
  have hday : -354285 ≤ romeDay zone t ∧ romeDay zone t < 2932897 := by
    have hlower : dayFromYear 1000 ≤ romeDay zone t := le_year_iff.mp hfirst
    have hupper : ¬dayFromYear 10000 ≤ romeDay zone t := fun h =>
      absurd (show 10000 ≤ (romeDate zone t).year from le_year_iff.mpr h) (by omega)
    exact ⟨hlower, Int.not_le.mp hupper⟩
  have hclock := clock_minuteStart zone t
  generalize hwall : zone.clock (minuteStart t) = wallClock at hclock
  have hrange : -354285 * dayMs ≤ wallClock ∧ wallClock < 2932897 * dayMs ∧
      wallClock % minuteMs = 0 := by
    simp only [romeDay, minuteMs, dayMs] at *
    omega
  have hfirstFullDay : firstFullDay = -683003 := by decide
  have hutc : (shown zone t).utc = some wallClock := by
    rw [← shown_minuteStart, utc_shown, hwall, newDate_of_le]
    all_goals
      simp only [hwall, maxTime, dayMs] at *
      omega
  have hzoned : zonedToUtc zone (some (shown zone t)) = .ok (some (resolved zone wallClock)) := by
    have hw := zone.hours wallClock
    have hc := zone.hours (wallClock - zone.offset wallClock * minuteMs)
    refine zonedToUtc_eq hutc hrange.2.2 ?_ ?_
    all_goals
      simp only [Zone.clock, minuteMs, maxTime, dayMs] at *
      omega
  refine ⟨resolved zone wallClock, ?_, ?_⟩
  · rw [utcFromRomeInput, hread]
    simp only [hzoned, ok_bind, toISOString]
    rfl
  · have hshown : shown zone (resolved zone wallClock) = shown zone t := by
      rw [← shown_minuteStart zone t]
      exact shown_congr ((clock_resolved hwall).trans hwall.symm)
    have hvalid : newDate (some (resolved zone wallClock)) = some (resolved zone wallClock) := by
      have hc := zone.hours (wallClock - zone.offset wallClock * minuteMs)
      apply newDate_of_le
      all_goals
        simp only [resolved, minuteMs, maxTime, dayMs] at *
        omega
    rw [romeInputFromUtc, hvalid]
    dsimp only
    rw [hshown, hyear, inputText, hn, padStart_of_le (by omega)]

/-! ## The promise -/

/-- **Period boundaries follow the Rome calendar** from the year 100 to the end of
the range of a `Date`, and the minutes of an input field in the years of four
digits. -/
theorem period_boundaries_iff (zone : Zone) :
    (∀ preset now, Covers zone preset now ↔
      100 ≤ (civil (romeDay zone now.time + preset.first)).year ∧
        romeDay zone now.time + preset.last + 1 < 100000000) ∧
      ∀ t, ComesBack zone t ↔ 1000 ≤ (romeDate zone t).year ∧ (romeDate zone t).year ≤ 9999 := by
  refine ⟨fun preset now => ?_, fun t => ⟨year_of_comesBack, fun h => comesBack_of_year h.1 h.2⟩⟩
  rw [covers_iff, le_year_iff]
  rfl

/-- A year under 1000 comes back with three digits, and in the year 50 today is a
day of 1950. -/
theorem not_period_boundaries :
    (∃ utc, inputText clock2026 utc = "0202-05-01T10:00".toList ∧
      utcFromRomeInput clock2026 "0202-05-01T10:00".toList = .ok (some utc) ∧
      romeInputFromUtc clock2026 (some utc) = "202-05-01T10:00".toList) ∧
    ∃ now, romeDate clock2026 now.time = ⟨50, 4, 1⟩ ∧
      presetPeriod clock2026 .today now =
        .ok { fromInstant := makeDay 1950 4 1 * dayMs - hourMs,
              toInstant := makeDay 1950 4 2 * dayMs - hourMs } ∧
      ¬Covers clock2026 .today now := by
  refine ⟨⟨-55782313200000, by decide +kernel, by decide +kernel, by decide +kernel⟩,
    ⟨⟨makeDay 50 4 1 * dayMs, by decide⟩, by decide +kernel, by decide +kernel, fun h => ?_⟩⟩
  exact absurd (covers_iff.mp h).1 (by decide +kernel)

end RetailPrintGuard.Frontend.InputFields

import Mathlib.Data.List.TakeWhile
import RetailPrintGuard.Library.DecimalRounding
import RetailPrintGuard.Library.RegexGroups
import RetailPrintGuard.Parser.Documents
import RetailPrintGuard.Parser.RchPatterns

/-! # Printed amounts

The numbers that a parser reads off a text, and when the unit price, the
quantity and the total of a line agree. -/
namespace RetailPrintGuard.Parser.PrintedAmounts
open RetailPrintGuard.Common.Amounts
open RetailPrintGuard.Common.PrintedText hiding finish start
open RetailPrintGuard.Library.DecimalFloat RetailPrintGuard.Library.DecimalRounding
open RetailPrintGuard.Library.Regex RetailPrintGuard.Library.RegexGroups
open RetailPrintGuard.Parser.Documents

/-- The total of a line is its unit price times its quantity, to the cent. -/
def Consistent (line : DocumentLine) : Prop :=
  ∀ quantity ∈ line.quantity, ∀ unit ∈ line.unitPrice, ∀ total ∈ line.lineTotal,
    equals total (roundTo (-2) (exactMul unit quantity)) = true

def AllConsistent (documents : List NormalizedDocument) : Prop :=
  ∀ document ∈ documents, ∀ line ∈ document.lines, Consistent line

/-! ## Printed numbers -/

variable {text t : Text}

theorem decimalOf_exponent {whole places : Text} (h : '.' ∉ whole) :
    (decimalOf (whole ++ '.' :: places)).exponent = -(places.length : Int) := by
  have hbody : ((whole ++ '.' :: places).dropWhile fun x => x == '+' || x == '-') =
      (whole.dropWhile fun x => x == '+' || x == '-') ++ '.' :: places := by
    rw [List.dropWhile_append]
    split
    · next hnone =>
      rw [List.isEmpty_iff.mp hnone]
      rfl
    · rfl
  have hwhole : ∀ x ∈ whole.dropWhile fun x => x == '+' || x == '-', (x != '.') = true := by
    intro x hx
    have hmem := (List.dropWhile_sublist _).subset hx
    rw [bne_iff_ne]
    rintro rfl
    exact h hmem
  unfold decimalOf
  dsimp only
  rw [hbody, List.dropWhile_append_of_pos hwhole]
  simp

/-- A text of the form of a printed amount has two decimals. -/
theorem printedMoney_exponent (h : Lang (seqs [opt (oneOf "+-"), times 1 9 digit,
    many (.seq (lit ".") (times 3 3 digit)), lit ",", times 2 2 digit]) t) :
    (printedMoney t).exponent = -2 := by
  obtain ⟨sign, _, rfl, hsign, digits, _, rfl, hdigits, groups, _, rfl, hgroups, comma, _, rfl,
    hcomma, places, _, rfl, hplaces, rfl⟩ := h
  obtain ⟨_, _, rfl, ⟨x, rfl, hx⟩, rfl⟩ := hcomma
  obtain rfl : ',' = x := beq_iff_eq.mp hx
  have hlength : places.length = 2 :=
    Nat.le_antisymm (length_le_of_lang hplaces rfl) (chars_of_lang hplaces).1
  have hfront : ',' ∉ sign ++ digits ++ groups := by
    simp only [List.mem_append, not_or]
    refine ⟨⟨fun hin => ?_, fun hin => ?_⟩, fun hin => ?_⟩
    · exact absurd (consumes_of_lang hsign hin) (by decide)
    · exact absurd (consumes_of_lang hdigits hin) (by decide)
    · exact absurd (consumes_of_lang hgroups hin) (by decide)
  have hdigit := (chars_of_lang hplaces).2
  have hplain : places.filter (· != '.') = places := by
    refine List.filter_eq_self.mpr fun x hx => bne_iff_ne.mpr ?_
    rintro rfl
    exact absurd (hdigit _ hx) (by decide)
  have hkept : replaceChar ',' '.' places = places := by
    refine List.map_congr_left (fun x hx => ?_) |>.trans (List.map_id places)
    have hne : x ≠ ',' := by
      rintro rfl
      exact absurd (hdigit _ hx) (by decide)
    simp [hne]
  have hwhole : '.' ∉ replaceChar ',' '.' ((sign ++ digits ++ groups).filter (· != '.')) := by
    intro hin
    obtain ⟨x, hx, heq⟩ := List.mem_map.mp hin
    obtain ⟨hmem, hne⟩ := List.mem_filter.mp hx
    have hcomma : x ≠ ',' := by
      rintro rfl
      exact hfront hmem
    simp [hcomma] at heq
    simp [heq] at hne
  have htext : replaceChar ',' '.' ((sign ++ digits ++ groups ++ [','] ++ places).filter
      (· != '.')) =
      replaceChar ',' '.' ((sign ++ digits ++ groups).filter (· != '.')) ++ '.' :: places := by
    rw [List.filter_append, List.filter_append, hplain]
    unfold replaceChar at hkept ⊢
    rw [List.map_append, List.map_append, hkept, List.append_assoc]
    rfl
  rw [List.append_nil, List.append_nil, ← List.append_assoc, ← List.append_assoc,
    ← List.append_assoc, printedMoney, htext, decimalOf_exponent hwhole, hlength]
  rfl

/-- Every printed amount has two decimals. -/
theorem printedMoney_finditer {found : Match} (h : found ∈ finditer RchPatterns.printedMoneyRe text) :
    (printedMoney ((found.group "value").getD [])).exponent = -2 := by
  obtain ⟨t, ht⟩ := captured_finditer h (by decide : captures _ "value" = true)
  have hlang := ((finditer_sound h).1.group ht).1
  rw [ht, Option.getD_some]
  refine printedMoney_exponent ?_
  rcases hlang with habsurd | hvalue | habsurd | habsurd
  · cases habsurd
  · rcases hvalue with ⟨-, hlang⟩ | habsurd
    · exact hlang
    · simp [Captures, seqs, opt, times, many, digit, lit, literal, oneOf] at habsurd
  · cases habsurd
  · cases habsurd

theorem decimalOf_whole (h : '.' ∉ text) : (decimalOf text).exponent = 0 := by
  have hnone : ∀ x ∈ text.dropWhile fun x => x == '+' || x == '-', (x != '.') = true := by
    intro x hx
    rw [bne_iff_ne]
    rintro rfl
    exact h ((List.dropWhile_sublist _).subset hx)
  unfold decimalOf
  dsimp only
  rw [List.dropWhile_eq_nil_iff.mpr hnone]
  rfl

/-! ## Lines -/

theorem consistent_append {added : DocumentLine} {lines : List DocumentLine}
    (h : ∀ line ∈ lines, Consistent line) (hadded : Consistent added) :
    ∀ line ∈ lines ++ [added], Consistent line := by
  intro line hin
  rcases List.mem_append.mp hin with hin | hin
  · exact h line hin
  · rw [List.mem_singleton.mp hin]
    exact hadded

/-- The quantity one keeps every amount. -/
theorem keeps_one (amount : Decimal) : Keeps ⟨false, 1, 0⟩ amount := by
  left
  simp [decimals, signed]

theorem consistent_of_keeps {line : DocumentLine} {amount quantity : Decimal}
    (hexponent : amount.exponent = -2) (hquantity : quantity.exponent ≤ 0)
    (hq : line.quantity = some quantity) (hunit : line.unitPrice = some amount)
    (htotal : line.lineTotal = some amount) :
    Consistent line ↔ Keeps quantity amount := by
  unfold Consistent
  rw [hq, hunit, htotal]
  simp only [Option.mem_def, Option.some.injEq, forall_eq']
  exact equals_roundTo_iff hexponent hquantity

end RetailPrintGuard.Parser.PrintedAmounts

import Mathlib.Data.String.Basic
import RetailPrintGuard.Library.ListOrder

/-! # Canonical JSON

Values and their text with sorted keys, no spaces and every character above the
controls written as it is. A floating-point number is its shortest text. The
text of a value tells the value, also when more text follows it. -/
namespace RetailPrintGuard.Library
open RetailPrintGuard.Library.ListOrder

/-- A finite number with a fraction or an exponent, as `float.__repr__` writes it. -/
def isFloatText (chars : List Char) : Bool :=
  (chars.all fun c => c.isDigit || c == '.' || c == 'e' || c == '+' || c == '-') &&
    (chars.any fun c => c == '.' || c == 'e') &&
    (chars.head?.any fun c => c.isDigit || c == '-')

structure FloatText where
  chars : List Char
  numeral : isFloatText chars = true
deriving DecidableEq

inductive JsonFloat where
  | finite (text : FloatText)
  | infinite (negative : Bool)
  | nan
deriving DecidableEq

inductive Json where
  | null
  | bool (value : Bool)
  | num (value : Int)
  | float (value : JsonFloat)
  | str (value : String)
  | arr (values : List Json)
  | obj (fields : List (String × Json))

namespace Json

/-! ## The text of a value -/

def hexDigit (n : Nat) : Char := Nat.digitChar (n % 16)

def escape (c : Char) : List Char :=
  if c = '"' then ['\\', '"']
  else if c = '\\' then ['\\', '\\']
  else if c = '\n' then ['\\', 'n']
  else if c = '\r' then ['\\', 'r']
  else if c = '\t' then ['\\', 't']
  else if c = '\x08' then ['\\', 'b']
  else if c = '\x0c' then ['\\', 'f']
  else if c.toNat < 32 then ['\\', 'u', '0', '0', hexDigit (c.toNat / 16), hexDigit c.toNat]
  else [c]

/-- A quoted text up to its closing quote. -/
def encodeText (chars : List Char) : List Char := chars.flatMap escape ++ ['"']

def encodeInt (n : Int) : List Char :=
  if n < 0 then '-' :: Nat.toDigits 10 n.natAbs else Nat.toDigits 10 n.natAbs

def encodeFloat : JsonFloat → List Char
  | .finite text => text.chars
  | .infinite true => ['-', 'I', 'n', 'f', 'i', 'n', 'i', 't', 'y']
  | .infinite false => ['I', 'n', 'f', 'i', 'n', 'i', 't', 'y']
  | .nan => ['N', 'a', 'N']

mutual
def encode : Json → List Char
  | .null => ['n', 'u', 'l', 'l']
  | .bool true => ['t', 'r', 'u', 'e']
  | .bool false => ['f', 'a', 'l', 's', 'e']
  | .num n => encodeInt n
  | .float f => encodeFloat f
  | .str s => '"' :: encodeText s.toList
  | .arr [] => ['[', ']']
  | .arr (v :: vs) => '[' :: encode v ++ encodeValues vs
  | .obj [] => ['{', '}']
  | .obj ((key, v) :: fs) => '{' :: '"' :: encodeText key.toList ++ ':' :: encode v ++ encodeFields fs

/-- The rest of an array. -/
def encodeValues : List Json → List Char
  | [] => [']']
  | v :: vs => ',' :: encode v ++ encodeValues vs

/-- The rest of an object. -/
def encodeFields : List (String × Json) → List Char
  | [] => ['}']
  | (key, v) :: fs => ',' :: '"' :: encodeText key.toList ++ ':' :: encode v ++ encodeFields fs
end

/-! ## Reading it back -/

/-- A character of a number. -/
def inNumeral (c : Char) : Bool := c.isAlphanum || c == '.' || c == '+' || c == '-'

/-- No number continues into the text. -/
def Stops (rest : List Char) : Prop := ∀ c ∈ rest.head?, inNumeral c = false

theorem stops_cons {c : Char} {rest : List Char} (h : inNumeral c = false) : Stops (c :: rest) := by
  intro d hd
  cases hd
  exact h

def Numeral (chars : List Char) : Prop := ∀ c ∈ chars, inNumeral c = true

theorem takeWhile_numeral {chars rest : List Char} (hc : Numeral chars) (h : Stops rest) :
    (chars ++ rest).takeWhile inNumeral = chars := by
  rw [List.takeWhile_append_of_pos hc]
  have hrest : rest.takeWhile inNumeral = [] := by
    cases rest with
    | nil => rfl
    | cons c rest => rw [List.takeWhile_cons_of_neg (by simpa using h c rfl)]
  rw [hrest, List.append_nil]

theorem numeral_cancel {cs ds s t : List Char} (hc : Numeral cs) (hd : Numeral ds) (hs : Stops s)
    (ht : Stops t) (h : cs ++ s = ds ++ t) : cs = ds ∧ s = t := by
  have hnumeral : cs = ds := by
    rw [← takeWhile_numeral hc hs, h, takeWhile_numeral hd ht]
  rw [hnumeral] at h
  exact ⟨hnumeral, List.append_cancel_left h⟩

theorem inNumeral_of_isDigit {c : Char} (h : c.isDigit = true) : inNumeral c = true := by
  simp [inNumeral, Char.isAlphanum, h]

theorem numeral_encodeInt (n : Int) : Numeral (encodeInt n) := by
  have hdigits : Numeral (Nat.toDigits 10 n.natAbs) := fun c hc =>
    inNumeral_of_isDigit (Nat.isDigit_of_mem_toDigits (by decide) (by decide) hc)
  unfold encodeInt
  split
  · intro c hc
    rcases List.mem_cons.mp hc with rfl | hc
    · decide
    · exact hdigits c hc
  · exact hdigits

theorem floatText_cases (text : FloatText) :
    (∀ c ∈ text.chars, c.isDigit = true ∨ c = '.' ∨ c = 'e' ∨ c = '+' ∨ c = '-') ∧
      (∃ c ∈ text.chars, c = '.' ∨ c = 'e') ∧
      ∃ c rest, text.chars = c :: rest ∧ (c.isDigit = true ∨ c = '-') := by
  have h := text.numeral
  simp only [isFloatText, Bool.and_eq_true, List.all_eq_true, List.any_eq_true, Bool.or_eq_true,
    beq_iff_eq, Option.any_eq_true, or_assoc] at h
  obtain ⟨⟨hall, hpoint⟩, c, hhead, hc⟩ := h
  refine ⟨hall, hpoint, ?_⟩
  cases hchars : text.chars with
  | nil => rw [hchars] at hhead; cases hhead
  | cons d rest =>
    rw [hchars] at hhead
    cases hhead
    exact ⟨_, rest, rfl, hc⟩

theorem Numeral.of_all {chars : List Char} (h : chars.all inNumeral = true) : Numeral chars :=
  fun c hc => List.all_eq_true.mp h c hc

theorem numeral_encodeFloat (f : JsonFloat) : Numeral (encodeFloat f) := by
  cases f with
  | finite text =>
    intro c hc
    rcases (floatText_cases text).1 c hc with h | rfl | rfl | rfl | rfl
    · exact inNumeral_of_isDigit h
    · decide
    · decide
    · decide
    · decide
  | infinite negative => cases negative <;> exact Numeral.of_all (by decide)
  | nan => exact Numeral.of_all (by decide)

theorem toDigits_injective {m n : Nat} (h : Nat.toDigits 10 m = Nat.toDigits 10 n) : m = n := by
  have hnum := congrArg (fun digits => Nat.ofDigitChars 10 digits 0) h
  simpa only [Nat.ofDigitChars_ten_toDigits] using hnum

theorem toDigits_head (n : Nat) : ∃ c digits, Nat.toDigits 10 n = c :: digits ∧ c.isDigit = true := by
  cases h : Nat.toDigits 10 n with
  | nil => exact absurd h Nat.toDigits_ne_nil
  | cons c digits =>
    exact ⟨c, digits, rfl, Nat.isDigit_of_mem_toDigits (by decide) (by decide) (h ▸ List.mem_cons_self)⟩

theorem encodeInt_injective {m n : Int} (h : encodeInt m = encodeInt n) : m = n := by
  obtain ⟨c, digits, hm, hc⟩ := toDigits_head m.natAbs
  obtain ⟨d, digits', hn, hd⟩ := toDigits_head n.natAbs
  unfold encodeInt at h
  split at h <;> split at h
  · have habs := toDigits_injective (List.cons.inj h).2
    omega
  · rw [hn] at h
    have hminus := (List.cons.inj h).1
    rw [← hminus] at hd
    cases hd
  · rw [hm] at h
    have hminus := (List.cons.inj h).1
    rw [hminus] at hc
    cases hc
  · have habs := toDigits_injective h
    omega

theorem mem_encodeInt {n : Int} {c : Char} (h : c ∈ encodeInt n) : c.isDigit = true ∨ c = '-' := by
  have hdigit : ∀ c ∈ Nat.toDigits 10 n.natAbs, c.isDigit = true := fun c hc =>
    Nat.isDigit_of_mem_toDigits (by decide) (by decide) hc
  unfold encodeInt at h
  split at h
  · rcases List.mem_cons.mp h with rfl | h
    · exact Or.inr rfl
    · exact Or.inl (hdigit c h)
  · exact Or.inl (hdigit c h)

/-- Every floating-point text holds a character no integer does. -/
theorem encodeInt_ne_encodeFloat (n : Int) (f : JsonFloat) : encodeInt n ≠ encodeFloat f := by
  intro h
  obtain ⟨c, hc, hdigit, hminus⟩ : ∃ c ∈ encodeFloat f, c.isDigit = false ∧ c ≠ '-' := by
    cases f with
    | finite text =>
      obtain ⟨c, hc, h⟩ := (floatText_cases text).2.1
      exact ⟨c, hc, by rcases h with rfl | rfl <;> decide, by rcases h with rfl | rfl <;> decide⟩
    | infinite negative => cases negative <;> exact ⟨'I', by decide, by decide, by decide⟩
    | nan => exact ⟨'N', by decide, by decide, by decide⟩
  rcases mem_encodeInt (h ▸ hc) with hd | hd
  · rw [hdigit] at hd
    cases hd
  · exact hminus hd

theorem finite_ne_named {text : FloatText} {c : Char} {chars : List Char}
    (hc : c ∈ chars) (hdigit : c.isDigit = false)
    (hsign : c ≠ '.' ∧ c ≠ 'e' ∧ c ≠ '+' ∧ c ≠ '-') : text.chars ≠ chars := by
  rintro rfl
  rcases (floatText_cases text).1 c hc with h | h | h | h | h
  · rw [hdigit] at h
    cases h
  · exact hsign.1 h
  · exact hsign.2.1 h
  · exact hsign.2.2.1 h
  · exact hsign.2.2.2 h

theorem encodeFloat_injective : Function.Injective encodeFloat := by
  intro f g h
  cases f with
  | finite text =>
    cases g with
    | finite text' =>
      have hchars : text.chars = text'.chars := h
      cases text
      cases text'
      cases hchars
      rfl
    | infinite negative =>
      cases negative <;>
        exact absurd h (finite_ne_named (by decide : 'I' ∈ _) (by decide) (by decide))
    | nan => exact absurd h (finite_ne_named (by decide : 'N' ∈ _) (by decide) (by decide))
  | infinite negative =>
    cases g with
    | finite text' =>
      cases negative <;>
        exact absurd h.symm (finite_ne_named (by decide : 'I' ∈ _) (by decide) (by decide))
    | infinite negative' =>
      revert h
      cases negative <;> cases negative' <;> decide
    | nan =>
      revert h
      cases negative <;> decide
  | nan =>
    cases g with
    | finite text' =>
      exact absurd h.symm (finite_ne_named (by decide : 'N' ∈ _) (by decide) (by decide))
    | infinite negative =>
      revert h
      cases negative <;> decide
    | nan => rfl

/-- The first character of an escape tells how long it is and which it is. -/
theorem escape_cases (c : Char) :
    (escape c = [c] ∧ c ≠ '"' ∧ c ≠ '\\' ∧ 32 ≤ c.toNat) ∨
      (∃ e, e ≠ 'u' ∧ escape c = ['\\', e] ∧
        (c, e) ∈ [('"', '"'), ('\\', '\\'), ('\n', 'n'), ('\r', 'r'), ('\t', 't'), ('\x08', 'b'),
          ('\x0c', 'f')]) ∨
      (c.toNat < 32 ∧
        escape c = ['\\', 'u', '0', '0', hexDigit (c.toNat / 16), hexDigit c.toNat]) := by
  unfold escape
  split
  · next h => exact Or.inr (Or.inl ⟨'"', by decide, rfl, by simp [h]⟩)
  split
  · next h => exact Or.inr (Or.inl ⟨'\\', by decide, rfl, by simp [h]⟩)
  split
  · next h => exact Or.inr (Or.inl ⟨'n', by decide, rfl, by simp [h]⟩)
  split
  · next h => exact Or.inr (Or.inl ⟨'r', by decide, rfl, by simp [h]⟩)
  split
  · next h => exact Or.inr (Or.inl ⟨'t', by decide, rfl, by simp [h]⟩)
  split
  · next h => exact Or.inr (Or.inl ⟨'b', by decide, rfl, by simp [h]⟩)
  split
  · next h => exact Or.inr (Or.inl ⟨'f', by decide, rfl, by simp [h]⟩)
  split
  · next h => exact Or.inr (Or.inr ⟨h, rfl⟩)
  · next hq hb _ _ _ _ _ h => exact Or.inl ⟨rfl, hq, hb, by omega⟩

theorem hexDigit_injective {m n : Nat} (hm : m < 16) (hn : n < 16) (h : hexDigit m = hexDigit n) :
    m = n := by
  have hall : ∀ a : Fin 16, ∀ b : Fin 16, hexDigit a = hexDigit b → a = b := by decide
  have := hall ⟨m, hm⟩ ⟨n, hn⟩ h
  exact Fin.mk.inj this

theorem escape_cancel {c d : Char} {s t : List Char} (h : escape c ++ s = escape d ++ t) :
    c = d ∧ s = t := by
  rcases escape_cases c with ⟨hc, hcq, hcb, hc32⟩ | ⟨e, heu, hc, hce⟩ | ⟨hc32, hc⟩ <;>
    rcases escape_cases d with ⟨hd, hdq, hdb, hd32⟩ | ⟨f, hfu, hd, hdf⟩ | ⟨hd32, hd⟩ <;>
    rw [hc, hd] at h
  · exact ⟨(List.cons.inj h).1, (List.cons.inj h).2⟩
  · exact absurd (List.cons.inj h).1 hcb
  · exact absurd (List.cons.inj h).1 hcb
  · exact absurd (List.cons.inj h).1.symm hdb
  · obtain ⟨-, h⟩ := List.cons.inj h
    obtain ⟨hef, hst⟩ := List.cons.inj h
    refine ⟨?_, hst⟩
    rw [← hef] at hdf
    -- the second character names the first
    have hname : ∀ p ∈ [('"', '"'), ('\\', '\\'), ('\n', 'n'), ('\r', 'r'), ('\t', 't'),
        ('\x08', 'b'), ('\x0c', 'f')], ∀ q ∈ [('"', '"'), ('\\', '\\'), ('\n', 'n'), ('\r', 'r'),
        ('\t', 't'), ('\x08', 'b'), ('\x0c', 'f')], p.2 = q.2 → p.1 = q.1 := by decide
    exact hname _ hce _ hdf rfl
  · obtain ⟨-, h⟩ := List.cons.inj h
    exact absurd (List.cons.inj h).1 heu
  · exact absurd (List.cons.inj h).1.symm hdb
  · obtain ⟨-, h⟩ := List.cons.inj h
    exact absurd (List.cons.inj h).1.symm hfu
  · simp only [List.cons_append, List.nil_append, List.cons.injEq, true_and] at h
    obtain ⟨hhigh, hlow, hst⟩ := h
    have hhigh := hexDigit_injective (by omega) (by omega) hhigh
    have hlow : c.toNat % 16 = d.toNat % 16 := by
      refine hexDigit_injective (by omega) (by omega) ?_
      simpa [hexDigit] using hlow
    refine ⟨Char.toNat_inj.mp (by omega), hst⟩

theorem quote_not_escape {c : Char} {s t : List Char} : '"' :: s ≠ escape c ++ t := by
  intro h
  rcases escape_cases c with ⟨hc, hcq, -, -⟩ | ⟨e, -, hc, -⟩ | ⟨-, hc⟩ <;> rw [hc] at h
  · exact hcq (List.cons.inj h).1.symm
  · cases (List.cons.inj h).1
  · cases (List.cons.inj h).1

theorem encodeText_cancel {cs ds : List Char} {s t : List Char}
    (h : encodeText cs ++ s = encodeText ds ++ t) : cs = ds ∧ s = t := by
  unfold encodeText at h
  induction cs generalizing ds with
  | nil =>
    cases ds with
    | nil => exact ⟨rfl, (List.cons.inj h).2⟩
    | cons d ds =>
      simp only [List.flatMap_nil, List.flatMap_cons, List.nil_append, List.append_assoc,
        List.singleton_append] at h
      exact absurd h quote_not_escape
  | cons c cs ih =>
    cases ds with
    | nil =>
      simp only [List.flatMap_nil, List.flatMap_cons, List.nil_append, List.append_assoc,
        List.singleton_append] at h
      exact absurd h.symm quote_not_escape
    | cons d ds =>
      rw [List.flatMap_cons, List.flatMap_cons, List.append_assoc, List.append_assoc,
        List.append_assoc, List.append_assoc] at h
      obtain ⟨hcd, hrest⟩ := escape_cancel h
      obtain ⟨hcs, hst⟩ := ih (by rw [List.append_assoc, List.append_assoc]; exact hrest)
      exact ⟨by rw [hcd, hcs], hst⟩

/-- The kind of value a first character announces. -/
def announced (c : Char) : Nat :=
  if c = 'n' then 0
  else if c = 't' ∨ c = 'f' then 1
  else if c = '-' ∨ c.isDigit = true ∨ c = 'I' ∨ c = 'N' then 2
  else if c = '"' then 3
  else if c = '[' then 4
  else if c = '{' then 5
  else 6

def kind : Json → Nat
  | .null => 0
  | .bool _ => 1
  | .num _ | .float _ => 2
  | .str _ => 3
  | .arr _ => 4
  | .obj _ => 5

theorem announced_of_isDigit {c : Char} (hc : c.isDigit = true) : announced c = 2 := by
  have hn : c ≠ 'n' := by rintro rfl; cases hc
  have ht : c ≠ 't' := by rintro rfl; cases hc
  have hf : c ≠ 'f' := by rintro rfl; cases hc
  simp [announced, hn, ht, hf, hc]

theorem encode_head (v : Json) : ∃ c rest, encode v = c :: rest ∧ announced c = kind v := by
  cases v with
  | null => exact ⟨_, _, rfl, by decide⟩
  | bool b => cases b <;> exact ⟨_, _, rfl, by decide⟩
  | num n =>
    obtain ⟨c, digits, hdigits, hc⟩ := toDigits_head n.natAbs
    show ∃ c rest, encodeInt n = c :: rest ∧ announced c = 2
    unfold encodeInt
    split
    · exact ⟨_, _, rfl, by decide⟩
    · exact ⟨c, digits, hdigits, announced_of_isDigit hc⟩
  | float f =>
    cases f with
    | finite text =>
      obtain ⟨c, rest, hchars, hc | rfl⟩ := (floatText_cases text).2.2
      · exact ⟨c, rest, hchars, announced_of_isDigit hc⟩
      · exact ⟨_, rest, hchars, (by decide : announced '-' = 2)⟩
    | infinite negative => cases negative <;> exact ⟨_, _, rfl, by decide⟩
    | nan => exact ⟨_, _, rfl, (by decide : announced 'N' = 2)⟩
  | str s => exact ⟨_, _, rfl, (by decide : announced '"' = 3)⟩
  | arr vs => cases vs <;> exact ⟨_, _, rfl, (by decide : announced '[' = 4)⟩
  | obj fs => rcases fs with _ | ⟨f, fs⟩ <;> exact ⟨_, _, rfl, (by decide : announced '{' = 5)⟩

theorem encode_ne_bracket (v : Json) (s t : List Char) : encode v ++ s ≠ ']' :: t := by
  intro h
  obtain ⟨c, rest, hv, hc⟩ := encode_head v
  rw [hv] at h
  rw [(List.cons.inj h).1] at hc
  have h6 : announced ']' = 6 := by decide
  rw [h6] at hc
  cases v <;> cases hc

theorem kind_eq {v w : Json} {s t : List Char} (h : encode v ++ s = encode w ++ t) :
    kind v = kind w := by
  obtain ⟨c, rest, hv, hc⟩ := encode_head v
  obtain ⟨d, rest', hw, hd⟩ := encode_head w
  rw [hv, hw] at h
  rw [← hc, ← hd, (List.cons.inj h).1]

theorem stops_encodeValues (vs : List Json) (s : List Char) : Stops (encodeValues vs ++ s) := by
  cases vs <;> exact stops_cons (by decide)

theorem stops_encodeFields (fs : List (String × Json)) (s : List Char) :
    Stops (encodeFields fs ++ s) := by
  cases fs with
  | nil => exact stops_cons (by decide)
  | cons f fs => exact stops_cons (by decide)

mutual
/-- Two texts that agree with what follows them are texts of one value. -/
theorem encode_cancel : ∀ (v w : Json) {s t : List Char}, Stops s → Stops t →
    encode v ++ s = encode w ++ t → v = w ∧ s = t
  | .null, w, s, t, _, _, h => by
    have hk := kind_eq h
    cases w <;> cases hk
    exact ⟨rfl, List.append_cancel_left h⟩
  | .bool a, w, s, t, _, _, h => by
    have hk := kind_eq h
    cases w <;> cases hk
    next b => cases a <;> cases b <;> simp_all [encode]
  | .num m, w, s, t, hs, ht, h => by
    have hk := kind_eq h
    cases w <;> cases hk
    · next n =>
      obtain ⟨hmn, hst⟩ := numeral_cancel (numeral_encodeInt m) (numeral_encodeInt n) hs ht h
      exact ⟨congrArg _ (encodeInt_injective hmn), hst⟩
    · next g =>
      obtain ⟨hmg, -⟩ := numeral_cancel (numeral_encodeInt m) (numeral_encodeFloat g) hs ht h
      exact absurd hmg (encodeInt_ne_encodeFloat m g)
  | .float f, w, s, t, hs, ht, h => by
    have hk := kind_eq h
    cases w <;> cases hk
    · next n =>
      obtain ⟨hfn, -⟩ := numeral_cancel (numeral_encodeFloat f) (numeral_encodeInt n) hs ht h
      exact absurd hfn.symm (encodeInt_ne_encodeFloat n f)
    · next g =>
      obtain ⟨hfg, hst⟩ := numeral_cancel (numeral_encodeFloat f) (numeral_encodeFloat g) hs ht h
      exact ⟨congrArg _ (encodeFloat_injective hfg), hst⟩
  | .str a, w, s, t, _, _, h => by
    have hk := kind_eq h
    cases w <;> cases hk
    next b =>
      obtain ⟨hab, hst⟩ := encodeText_cancel (List.cons.inj h).2
      exact ⟨congrArg _ (String.toList_inj.mp hab), hst⟩
  | .arr vs, w, s, t, hs, ht, h => by
    have hk := kind_eq h
    cases w <;> cases hk
    next ws =>
      match vs, ws, h with
      | [], [], h => exact ⟨rfl, (List.cons.inj (List.cons.inj h).2).2⟩
      | [], w :: ws, h =>
        have h : ']' :: s = encode w ++ (encodeValues ws ++ t) := by simpa [encode] using h
        exact absurd h.symm (encode_ne_bracket w _ _)
      | v :: vs, [], h =>
        have h : encode v ++ (encodeValues vs ++ s) = ']' :: t := by simpa [encode] using h
        exact absurd h (encode_ne_bracket v _ _)
      | v :: vs, w :: ws, h =>
        have h : encode v ++ (encodeValues vs ++ s) = encode w ++ (encodeValues ws ++ t) := by
          simpa [encode] using h
        obtain ⟨hvw, hrest⟩ := encode_cancel v w (stops_encodeValues vs s)
          (stops_encodeValues ws t) h
        obtain ⟨hvs, hst⟩ := encodeValues_cancel vs ws hrest
        exact ⟨by rw [hvw, hvs], hst⟩
  | .obj fs, w, s, t, hs, ht, h => by
    have hk := kind_eq h
    cases w <;> cases hk
    next gs =>
      match fs, gs, h with
      | [], [], h => exact ⟨rfl, (List.cons.inj (List.cons.inj h).2).2⟩
      | [], g :: gs, h => simp [encode] at h
      | f :: fs, [], h => simp [encode] at h
      | (key, v) :: fs, (key', w) :: gs, h =>
        have h : encodeText key.toList ++ (':' :: (encode v ++ (encodeFields fs ++ s))) =
            encodeText key'.toList ++ (':' :: (encode w ++ (encodeFields gs ++ t))) := by
          simpa [encode] using h
        obtain ⟨hkey, hcolon⟩ := encodeText_cancel h
        obtain ⟨hvw, hrest⟩ := encode_cancel v w (stops_encodeFields fs s)
          (stops_encodeFields gs t) (List.cons.inj hcolon).2
        obtain ⟨hfs, hst⟩ := encodeFields_cancel fs gs hrest
        exact ⟨by rw [String.toList_inj.mp hkey, hvw, hfs], hst⟩

theorem encodeValues_cancel : ∀ (vs ws : List Json) {s t : List Char},
    encodeValues vs ++ s = encodeValues ws ++ t → vs = ws ∧ s = t
  | [], [], s, t, h => ⟨rfl, (List.cons.inj h).2⟩
  | [], w :: ws, s, t, h => by cases (List.cons.inj h).1
  | v :: vs, [], s, t, h => by cases (List.cons.inj h).1
  | v :: vs, w :: ws, s, t, h => by
    have h : encode v ++ (encodeValues vs ++ s) = encode w ++ (encodeValues ws ++ t) := by
      simpa [encodeValues] using h
    obtain ⟨hvw, hrest⟩ := encode_cancel v w (stops_encodeValues vs s) (stops_encodeValues ws t) h
    obtain ⟨hvs, hst⟩ := encodeValues_cancel vs ws hrest
    exact ⟨by rw [hvw, hvs], hst⟩

theorem encodeFields_cancel : ∀ (fs gs : List (String × Json)) {s t : List Char},
    encodeFields fs ++ s = encodeFields gs ++ t → fs = gs ∧ s = t
  | [], [], s, t, h => ⟨rfl, (List.cons.inj h).2⟩
  | [], g :: gs, s, t, h => by cases (List.cons.inj h).1
  | f :: fs, [], s, t, h => by cases (List.cons.inj h).1
  | (key, v) :: fs, (key', w) :: gs, s, t, h => by
    have h : encodeText key.toList ++ (':' :: (encode v ++ (encodeFields fs ++ s))) =
        encodeText key'.toList ++ (':' :: (encode w ++ (encodeFields gs ++ t))) := by
      simpa [encodeFields] using h
    obtain ⟨hkey, hcolon⟩ := encodeText_cancel h
    obtain ⟨hvw, hrest⟩ := encode_cancel v w (stops_encodeFields fs s) (stops_encodeFields gs t)
      (List.cons.inj hcolon).2
    obtain ⟨hfs, hst⟩ := encodeFields_cancel fs gs hrest
    exact ⟨by rw [String.toList_inj.mp hkey, hvw, hfs], hst⟩
end

theorem encode_obj_cancel {fs gs : List (String × Json)} {s t : List Char}
    (h : encode (.obj fs) ++ s = encode (.obj gs) ++ t) : fs = gs ∧ s = t := by
  match fs, gs, h with
  | [], [], h => exact ⟨rfl, (List.cons.inj (List.cons.inj h).2).2⟩
  | [], g :: gs, h => simp [encode] at h
  | f :: fs, [], h => simp [encode] at h
  | (key, v) :: fs, (key', w) :: gs, h =>
    refine encodeFields_cancel ((key, v) :: fs) ((key', w) :: gs) ?_
    simpa [encode, encodeFields] using h

theorem encode_injective : Function.Injective encode := by
  intro v w h
  refine (encode_cancel v w (s := []) (t := []) ?_ ?_ ?_).1
  · intro c hc
    cases hc
  · intro c hc
    cases hc
  · rw [h]

instance : DecidableEq Json := fun v w =>
  decidable_of_iff (encode v = encode w) encode_injective.eq_iff

/-! ## Objects -/

/-- The field of a key. -/
def get? (v : Json) (key : String) : Option Json :=
  match v with
  | .obj fields => fields.lookup key
  | _ => none

/-- An object without a key. -/
def erase (v : Json) (key : String) : Json :=
  match v with
  | .obj fields => .obj (fields.filter fun field => field.1 != key)
  | v => v

mutual
/-- Every object in the order of its keys. -/
def sortKeys : Json → Json
  | .arr values => .arr (sortValues values)
  | .obj fields => .obj (sortFields fields)
  | v => v

def sortValues : List Json → List Json
  | [] => []
  | v :: vs => sortKeys v :: sortValues vs

def sortFields : List (String × Json) → List (String × Json)
  | [] => []
  | (key, v) :: fs => (sortFields fs).orderedInsert (fun f g => f.1 ≤ g.1) (key, sortKeys v)
end

theorem sortValues_eq_self {values : List Json} (h : ∀ v ∈ values, sortKeys v = v) :
    sortValues values = values := by
  induction values with
  | nil => rfl
  | cons v vs ih =>
    rw [sortValues, h v List.mem_cons_self, ih fun w hw => h w (List.mem_cons_of_mem _ hw)]

theorem sortFields_eq_self {fields : List (String × Json)}
    (hkeys : (fields.map Prod.fst).Pairwise (· ≤ ·)) (h : ∀ f ∈ fields, sortKeys f.2 = f.2) :
    sortFields fields = fields := by
  induction fields with
  | nil => rfl
  | cons f fs ih =>
    obtain ⟨hle, hkeys⟩ := List.pairwise_cons.mp hkeys
    rw [sortFields, h f List.mem_cons_self, ih hkeys fun g hg => h g (List.mem_cons_of_mem _ hg)]
    cases fs with
    | nil => rfl
    | cons g gs => exact if_pos (hle g.1 (by simp))

theorem sortKeys_obj {fields : List (String × Json)}
    (hkeys : (fields.map Prod.fst).Pairwise (· ≤ ·)) (h : ∀ f ∈ fields, sortKeys f.2 = f.2) :
    sortKeys (.obj fields) = .obj fields := congrArg _ (sortFields_eq_self hkeys h)

mutual
/-- No object has a key twice. -/
def Distinct : Json → Prop
  | .arr values => DistinctValues values
  | .obj fields => (fields.map Prod.fst).Nodup ∧ DistinctFields fields
  | _ => True

def DistinctValues : List Json → Prop
  | [] => True
  | v :: vs => Distinct v ∧ DistinctValues vs

def DistinctFields : List (String × Json) → Prop
  | [] => True
  | (_, v) :: fs => Distinct v ∧ DistinctFields fs
end

/-- No floating-point number, and at most so many objects and arrays in one another. -/
def plain : Nat → Json → Bool
  | _, .float _ => false
  | 0, .arr _ => false
  | 0, .obj _ => false
  | n + 1, .arr values => values.all (plain n)
  | n + 1, .obj fields => fields.all fun field => plain n field.2
  | _, _ => true

theorem distinctValues_iff {values : List Json} :
    DistinctValues values ↔ ∀ v ∈ values, Distinct v := by
  induction values with
  | nil => simp [DistinctValues]
  | cons v vs ih => simp [DistinctValues, ih]

theorem distinctFields_iff {fields : List (String × Json)} :
    DistinctFields fields ↔ ∀ f ∈ fields, Distinct f.2 := by
  induction fields with
  | nil => simp [DistinctFields]
  | cons f fs ih => simp [DistinctFields, ih]

theorem sortFields_eq (fields : List (String × Json)) : sortFields fields =
    (fields.map fun f => (f.1, sortKeys f.2)).insertionSort fun f g => f.1 ≤ g.1 := by
  induction fields with
  | nil => rfl
  | cons f fs ih => rw [sortFields, ih, List.map_cons, List.insertionSort_cons]

theorem sortValues_eq (values : List Json) : sortValues values = values.map sortKeys := by
  induction values with
  | nil => rfl
  | cons v vs ih => rw [sortValues, ih, List.map_cons]

instance : Std.Total fun f g : String × Json => f.1 ≤ g.1 := ⟨fun f g => le_total f.1 g.1⟩

instance : IsTrans (String × Json) fun f g => f.1 ≤ g.1 := ⟨fun _ _ _ => le_trans⟩

theorem keys_sortFields_pairwise (fields : List (String × Json)) :
    ((sortFields fields).map Prod.fst).Pairwise (· ≤ ·) := by
  rw [sortFields_eq, List.pairwise_map]
  exact List.pairwise_insertionSort (fun f g : String × Json => f.1 ≤ g.1) _

theorem mem_sortFields {fields : List (String × Json)} {f : String × Json} :
    f ∈ sortFields fields ↔ ∃ g ∈ fields, (g.1, sortKeys g.2) = f := by
  rw [sortFields_eq, mem_sorted, List.mem_map]

mutual
theorem sortKeys_idem : ∀ v : Json, sortKeys (sortKeys v) = sortKeys v
  | .null | .bool _ | .num _ | .float _ | .str _ => rfl
  | .arr vs => by
    rw [sortKeys, sortKeys, sortValues_eq_self]
    intro w hw
    rw [sortValues_eq] at hw
    obtain ⟨v, hv, rfl⟩ := List.mem_map.mp hw
    exact sortValues_idem vs v hv
  | .obj fs => by
    rw [sortKeys]
    refine sortKeys_obj (keys_sortFields_pairwise fs) fun g hg => ?_
    obtain ⟨f, hf, rfl⟩ := mem_sortFields.mp hg
    exact sortFields_idem fs f hf

theorem sortValues_idem : ∀ (vs : List Json), ∀ v ∈ vs, sortKeys (sortKeys v) = sortKeys v
  | v :: vs, w, hw => by
    rcases List.mem_cons.mp hw with hwv | hw
    · rw [hwv]
      exact sortKeys_idem v
    · exact sortValues_idem vs w hw

theorem sortFields_idem : ∀ (fs : List (String × Json)), ∀ f ∈ fs,
    sortKeys (sortKeys f.2) = sortKeys f.2
  | (_, v) :: fs, g, hg => by
    rcases List.mem_cons.mp hg with hgv | hg
    · rw [hgv]
      exact sortKeys_idem v
    · exact sortFields_idem fs g hg
end

theorem nodup_sortFields {fields : List (String × Json)} (h : (fields.map Prod.fst).Nodup) :
    ((sortFields fields).map Prod.fst).Nodup := by
  have hperm : ((sortFields fields).map Prod.fst).Perm (fields.map Prod.fst) := by
    rw [sortFields_eq]
    refine ((List.perm_insertionSort _ _).map _).trans ?_
    rw [List.map_map]
    exact List.Perm.refl _
  exact hperm.nodup_iff.mpr h

mutual
theorem Distinct.sortKeys : ∀ {v : Json}, v.Distinct → v.sortKeys.Distinct
  | .null, h | .bool _, h | .num _, h | .float _, h | .str _, h => h
  | .arr vs, h => by
    show DistinctValues (sortValues vs)
    rw [sortValues_eq, distinctValues_iff]
    intro w hw
    obtain ⟨v, hv, rfl⟩ := List.mem_map.mp hw
    exact distinct_sortValues vs h v hv
  | .obj fs, h => by
    refine ⟨nodup_sortFields h.1, distinctFields_iff.mpr fun g hg => ?_⟩
    obtain ⟨f, hf, rfl⟩ := mem_sortFields.mp hg
    exact distinct_sortFields fs h.2 f hf

theorem distinct_sortValues : ∀ (vs : List Json), DistinctValues vs →
    ∀ v ∈ vs, v.sortKeys.Distinct
  | v :: vs, h, w, hw => by
    rcases List.mem_cons.mp hw with hwv | hw
    · rw [hwv]
      exact h.1.sortKeys
    · exact distinct_sortValues vs h.2 w hw

theorem distinct_sortFields : ∀ (fs : List (String × Json)), DistinctFields fs →
    ∀ f ∈ fs, f.2.sortKeys.Distinct
  | (_, v) :: fs, h, g, hg => by
    rcases List.mem_cons.mp hg with hgv | hg
    · rw [hgv]
      exact h.1.sortKeys
    · exact distinct_sortFields fs h.2 g hg
end

theorem lookup_eq_some_iff {fields : List (String × Json)} (h : (fields.map Prod.fst).Nodup)
    {key : String} {v : Json} : fields.lookup key = some v ↔ (key, v) ∈ fields := by
  induction fields with
  | nil => simp
  | cons f fs ih =>
    obtain ⟨hnew, h⟩ := List.nodup_cons.mp h
    rw [List.lookup_cons, List.mem_cons]
    by_cases hk : key = f.1
    · have hout : (key, v) ∉ fs := fun hm => hnew (hk ▸ List.mem_map_of_mem hm)
      simp only [hk, beq_self_eq_true, Option.some.injEq]
      rw [← hk]
      constructor
      · rintro rfl
        exact Or.inl (by rw [hk])
      · rintro (heq | hm)
        · rw [← heq]
        · exact absurd hm hout
    · simp only [beq_eq_false_iff_ne.mpr hk, ih h]
      constructor
      · exact Or.inr
      · rintro (heq | hm)
        · exact absurd (congrArg Prod.fst heq) hk
        · exact hm

/-- Sorting the keys changes no field. -/
theorem plain_sortKeys {n : Nat} {v : Json} (h : v.plain n = true) : v.sortKeys.plain n = true := by
  induction n generalizing v with
  | zero =>
    cases v with
    | arr values => cases h
    | obj fields => cases h
    | _ => exact h
  | succ n ih =>
    cases v with
    | arr values =>
      rw [sortKeys, sortValues_eq, plain, List.all_map]
      exact List.all_eq_true.mpr fun v hv => ih (List.all_eq_true.mp h v hv)
    | obj fields =>
      refine List.all_eq_true.mpr fun field hfield => ?_
      obtain ⟨g, hg, rfl⟩ := mem_sortFields.mp hfield
      exact ih (List.all_eq_true.mp h g hg)
    | _ => exact h

theorem get?_sortKeys {v : Json} (h : v.Distinct) (key : String) :
    (sortKeys v).get? key = (v.get? key).map sortKeys := by
  cases v with
  | obj fields =>
    have hnodup : (fields.map Prod.fst).Nodup := h.1
    show (sortFields fields).lookup key = (fields.lookup key).map sortKeys
    ext w
    rw [lookup_eq_some_iff (nodup_sortFields hnodup), mem_sortFields]
    rw [Option.map_eq_some_iff]
    constructor
    · rintro ⟨g, hg, heq⟩
      cases heq
      exact ⟨g.2, (lookup_eq_some_iff hnodup).mpr hg, rfl⟩
    · rintro ⟨u, hu, rfl⟩
      exact ⟨(key, u), (lookup_eq_some_iff hnodup).mp hu, rfl⟩
  | _ => rfl

/-- Deleting a key and sorting commute. -/
theorem erase_sortKeys {v : Json} (h : v.Distinct) (key : String) :
    (sortKeys v).erase key = sortKeys (v.erase key) := by
  cases v with
  | obj fields =>
    have hnodup : ((fields.map fun f => (f.1, sortKeys f.2)).map Prod.fst).Nodup := by
      rw [List.map_map]
      exact h.1
    show obj ((sortFields fields).filter fun f => f.1 != key) =
      obj (sortFields (fields.filter fun f => f.1 != key))
    rw [sortFields_eq, sortFields_eq, filter_insertionSort, List.filter_map]
    · rfl
    · intro f hf g hg hfg hgf
      exact List.inj_on_of_nodup_map hnodup hf hg (le_antisymm hfg hgf)
  | _ => rfl

theorem get?_erase {v : Json} {key other : String} (h : other ≠ key) :
    (v.erase key).get? other = v.get? other := by
  cases v with
  | obj fields =>
    show (fields.filter fun f => f.1 != key).lookup other = fields.lookup other
    induction fields with
    | nil => rfl
    | cons f fields ih =>
      rw [List.filter_cons, List.lookup_cons]
      split
      · rw [List.lookup_cons, ih]
      · next hkey =>
        have hother : (other == f.1) = false := by
          rw [beq_eq_false_iff_ne]
          rintro rfl
          exact hkey (bne_iff_ne.mpr h)
        rw [ih, hother]
  | _ => rfl

theorem Distinct.erase {v : Json} (h : v.Distinct) (key : String) : (v.erase key).Distinct := by
  cases v with
  | obj fields =>
    refine ⟨h.1.sublist (List.filter_sublist.map _), distinctFields_iff.mpr fun f hf => ?_⟩
    exact distinctFields_iff.mp h.2 f (List.mem_of_mem_filter hf)
  | _ => exact h

/-! ## Bytes -/

/-- `str.encode("utf-8")` -/
def utf8 (chars : List Char) : List UInt8 := chars.flatMap String.utf8EncodeChar

theorem utf8_injective : Function.Injective utf8 := by
  intro cs ds h
  have hbytes : cs.utf8Encode = ds.utf8Encode := by
    unfold List.utf8Encode
    exact congrArg List.toByteArray h
  have hstring : String.ofList cs = String.ofList ds := by
    rw [← String.toByteArray_inj, String.toByteArray_ofList, String.toByteArray_ofList, hbytes]
  exact String.ofList_inj.mp hstring

/-- `json.dumps(..., ensure_ascii=False, sort_keys=True, separators=(",", ":"))`, encoded. -/
def dumps (v : Json) : List UInt8 := utf8 (encode (sortKeys v))

theorem dumps_sortKeys (v : Json) : dumps (sortKeys v) = dumps v := by
  rw [dumps, dumps, sortKeys_idem]

theorem dumps_injOn {v w : Json} (h : dumps v = dumps w) : sortKeys v = sortKeys w :=
  encode_injective (utf8_injective h)

/-- No control character. -/
def Printable (chars : List Char) : Prop := ∀ c ∈ chars, 32 ≤ c.toNat

theorem Printable.of_all {chars : List Char} (h : (chars.all fun c => 32 ≤ c.toNat) = true) :
    Printable chars :=
  fun c hc => of_decide_eq_true (List.all_eq_true.mp h c hc)

theorem Printable.append {cs ds : List Char} (hc : Printable cs) (hd : Printable ds) :
    Printable (cs ++ ds) := by
  intro c h
  rcases List.mem_append.mp h with h | h
  · exact hc c h
  · exact hd c h

theorem Printable.cons {c : Char} {cs : List Char} (h : 32 ≤ c.toNat) (hc : Printable cs) :
    Printable (c :: cs) := by
  intro d hd
  rcases List.mem_cons.mp hd with rfl | hd
  · exact h
  · exact hc d hd

theorem printable_hexDigit (n : Nat) : 32 ≤ (hexDigit n).toNat := by
  have hall : ∀ a : Fin 16, 32 ≤ (Nat.digitChar a).toNat := by decide
  exact hall ⟨n % 16, Nat.mod_lt _ (by decide)⟩

theorem printable_escape (c : Char) : Printable (escape c) := by
  intro d hd
  rcases escape_cases c with ⟨hc, -, -, h32⟩ | ⟨e, -, hc, hce⟩ | ⟨-, hc⟩ <;> rw [hc] at hd
  · rw [List.mem_singleton.mp hd]
    exact h32
  · have hall : ∀ p ∈ [('"', '"'), ('\\', '\\'), ('\n', 'n'), ('\r', 'r'), ('\t', 't'),
        ('\x08', 'b'), ('\x0c', 'f')], 32 ≤ p.2.toNat := by decide
    simp only [List.mem_cons, List.not_mem_nil, or_false] at hd
    rcases hd with rfl | rfl
    · decide
    · exact hall _ hce
  · simp only [List.mem_cons, List.not_mem_nil, or_false] at hd
    rcases hd with rfl | rfl | rfl | rfl | rfl | rfl
    · decide
    · decide
    · decide
    · decide
    · exact printable_hexDigit _
    · exact printable_hexDigit _

theorem printable_encodeText (chars : List Char) : Printable (encodeText chars) := by
  refine Printable.append (fun d hd => ?_) (by intro c hc; simp_all)
  obtain ⟨c, -, hd⟩ := List.mem_flatMap.mp hd
  exact printable_escape c d hd

theorem printable_of_isDigit {c : Char} (h : c.isDigit = true) : 32 ≤ c.toNat := by
  simp only [Char.isDigit, Bool.and_eq_true, decide_eq_true_eq] at h
  have h48 : (48 : UInt32) ≤ c.val := h.1
  have : (48 : UInt32).toNat ≤ c.val.toNat := h48
  show 32 ≤ c.val.toNat
  have h : (48 : UInt32).toNat = 48 := rfl
  omega

theorem printable_encodeInt (n : Int) : Printable (encodeInt n) := by
  intro c hc
  rcases mem_encodeInt hc with h | rfl
  · exact printable_of_isDigit h
  · decide

theorem printable_encodeFloat (f : JsonFloat) : Printable (encodeFloat f) := by
  cases f with
  | finite text =>
    intro c hc
    rcases (floatText_cases text).1 c hc with h | rfl | rfl | rfl | rfl
    · exact printable_of_isDigit h
    · decide
    · decide
    · decide
    · decide
  | infinite negative => cases negative <;> exact Printable.of_all (by decide)
  | nan => exact Printable.of_all (by decide)

mutual
theorem printable_encode : ∀ v : Json, Printable (encode v)
  | .null => by rw [encode]; exact .of_all (by decide)
  | .bool true => by rw [encode]; exact .of_all (by decide)
  | .bool false => by rw [encode]; exact .of_all (by decide)
  | .num n => printable_encodeInt n
  | .float f => printable_encodeFloat f
  | .str s => (printable_encodeText s.toList).cons (by decide)
  | .arr [] => by rw [encode]; exact .of_all (by decide)
  | .arr (v :: vs) => ((printable_encode v).append (printable_encodeValues vs)).cons (by decide)
  | .obj [] => by rw [encode]; exact .of_all (by decide)
  | .obj ((key, v) :: fs) =>
    ((((printable_encodeText key.toList).cons (by decide)).append
      ((printable_encode v).cons (by decide))).append (printable_encodeFields fs)).cons (by decide)

theorem printable_encodeValues : ∀ vs : List Json, Printable (encodeValues vs)
  | [] => by rw [encodeValues]; exact .of_all (by decide)
  | v :: vs => ((printable_encode v).append (printable_encodeValues vs)).cons (by decide)

theorem printable_encodeFields : ∀ fs : List (String × Json), Printable (encodeFields fs)
  | [] => by rw [encodeFields]; exact .of_all (by decide)
  | (key, v) :: fs =>
    ((((printable_encodeText key.toList).cons (by decide)).append
      ((printable_encode v).cons (by decide))).append (printable_encodeFields fs)).cons (by decide)
end

theorem utf8EncodeChar_ge {c : Char} (h : 32 ≤ c.toNat) : ∀ b ∈ String.utf8EncodeChar c, 32 ≤ b := by
  have hofNat : ∀ n, 32 ≤ n % 256 → (32 : UInt8) ≤ UInt8.ofNat n := by
    intro n hn
    rw [UInt8.le_iff_toNat_le, UInt8.toNat_ofNat]
    exact hn
  have h : 32 ≤ c.val.toNat := h
  intro b hb
  simp only [String.utf8EncodeChar] at hb
  split at hb
  · rw [List.mem_singleton.mp hb]
    exact hofNat _ (by omega)
  · split at hb
    · simp only [List.mem_cons, List.not_mem_nil, or_false] at hb
      rcases hb with rfl | rfl <;> exact hofNat _ (by omega)
    · split at hb
      · simp only [List.mem_cons, List.not_mem_nil, or_false] at hb
        rcases hb with rfl | rfl | rfl <;> exact hofNat _ (by omega)
      · simp only [List.mem_cons, List.not_mem_nil, or_false] at hb
        rcases hb with rfl | rfl | rfl | rfl <;> exact hofNat _ (by omega)

/-- The text of a value is one line. -/
theorem dumps_ge (v : Json) : ∀ b ∈ dumps v, 32 ≤ b := by
  intro b hb
  obtain ⟨c, hc, hb⟩ := List.mem_flatMap.mp hb
  exact utf8EncodeChar_ge (printable_encode _ c hc) b hb

theorem dumps_ne_nil (v : Json) : dumps v ≠ [] := by
  obtain ⟨c, rest, hv, -⟩ := encode_head (sortKeys v)
  unfold dumps utf8
  rw [hv, List.flatMap_cons]
  intro h
  have hlen := String.length_utf8EncodeChar c
  rw [(List.append_eq_nil_iff.mp h).1] at hlen
  exact absurd hlen (Nat.ne_of_lt c.utf8Size_pos)

/-! ## Prefixes -/

theorem utf8EncodeChar_cancel {c d : Char} {s t : List UInt8}
    (h : String.utf8EncodeChar c ++ s = String.utf8EncodeChar d ++ t) : c = d ∧ s = t := by
  have hc := @ByteArray.utf8DecodeChar?_utf8EncodeChar_append s.toByteArray c
  have hd := @ByteArray.utf8DecodeChar?_utf8EncodeChar_append t.toByteArray d
  rw [← List.toByteArray_append] at hc hd
  rw [h, hd] at hc
  obtain rfl : d = c := Option.some.inj hc
  exact ⟨rfl, List.append_cancel_left h⟩

theorem utf8_prefix {cs ds : List Char} {s : List UInt8} (h : utf8 cs ++ s = utf8 ds) :
    ∃ es, ds = cs ++ es ∧ s = utf8 es := by
  induction cs generalizing ds with
  | nil => exact ⟨ds, rfl, h⟩
  | cons c cs ih =>
    cases ds with
    | nil =>
      have hlen := congrArg List.length h
      rw [List.length_append, utf8, List.flatMap_cons, List.length_append,
        String.length_utf8EncodeChar] at hlen
      have := c.utf8Size_pos
      simp [utf8] at hlen
      omega
    | cons d ds =>
      rw [utf8, utf8, List.flatMap_cons, List.flatMap_cons, List.append_assoc] at h
      obtain ⟨rfl, hrest⟩ := utf8EncodeChar_cancel h
      obtain ⟨es, hds, hs⟩ := ih hrest
      exact ⟨es, by rw [hds, List.cons_append], hs⟩

/-- No proper prefix of the text of an object is the text of a value. -/
theorem eq_of_dumps_prefix {v : Json} {fields : List (String × Json)}
    (h : v.dumps <+: (obj fields).dumps) : v.dumps = (obj fields).dumps := by
  obtain ⟨rest, hrest⟩ := h
  obtain ⟨chars, hchars, hutf8⟩ := utf8_prefix hrest
  have htext : encode (obj fields).sortKeys ++ [] = encode v.sortKeys ++ chars := by
    rw [List.append_nil, hchars]
  have hkind := kind_eq htext
  have hobj : ∃ gs, v.sortKeys = .obj gs := by
    generalize v.sortKeys = w at hkind ⊢
    cases w with
    | obj gs => exact ⟨gs, rfl⟩
    | _ => cases hkind
  obtain ⟨gs, hgs⟩ := hobj
  rw [hgs] at htext
  obtain ⟨-, hnil⟩ := encode_obj_cancel htext
  rw [← hrest, hutf8, ← hnil]
  exact (List.append_nil _).symm

example : dumps (.obj [("b", .arr [.null, .str "a\n"]), ("a", .num (-5))]) =
    utf8 "\x7b\"a\":-5,\"b\":[null,\"a\\n\"]\x7d".toList := by decide +kernel

end Json

end RetailPrintGuard.Library

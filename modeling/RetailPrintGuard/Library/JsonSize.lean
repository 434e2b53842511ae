import Mathlib.Algebra.GroupWithZero.Nat
import Mathlib.Algebra.Ring.Int.Defs
import RetailPrintGuard.Library.CanonicalJson

/-! # The size of canonical JSON

A bound on the bytes of a value that does not look into its texts: a character
takes six bytes at most. -/
namespace RetailPrintGuard.Library.Json

mutual
def weight : Json → Nat
  | .null => 4
  | .bool _ => 5
  | .num n => (encodeInt n).length
  | .float f => (encodeFloat f).length
  | .str s => 6 * s.length + 2
  | .arr values => weightValues values + 2
  | .obj fields => weightFields fields + 2

def weightValues : List Json → Nat
  | [] => 0
  | v :: vs => weight v + 1 + weightValues vs

def weightFields : List (String × Json) → Nat
  | [] => 0
  | (key, v) :: fs => 6 * key.length + 4 + weight v + weightFields fs
end

theorem weight_str (s : String) : weight (.str s) = 6 * s.length + 2 := by rw [weight]

theorem weight_bool (b : Bool) : weight (.bool b) = 5 := by rw [weight]

/-- The weight of the keys of an object, and of what stands around them. -/
def weightKeys (keys : List String) : Nat := (keys.map fun key => 6 * key.length + 4).sum

theorem weight_obj (fields : List (String × Json)) : weight (.obj fields) =
    weightKeys (fields.map Prod.fst) + (fields.map fun f => weight f.2).sum + 2 := by
  rw [weight, Nat.add_right_cancel_iff]
  induction fields with
  | nil => rw [weightFields]; rfl
  | cons f fs ih =>
    rw [weightFields, ih, weightKeys, weightKeys, List.map_cons, List.map_cons, List.map_cons,
      List.sum_cons, List.sum_cons]
    omega

/-! ## Texts -/

theorem length_utf8_cons (c : Char) (chars : List Char) :
    (utf8 (c :: chars)).length = c.utf8Size + (utf8 chars).length := by
  rw [utf8, List.flatMap_cons, List.length_append, String.length_utf8EncodeChar]
  rfl

theorem length_utf8_append (cs ds : List Char) :
    (utf8 (cs ++ ds)).length = (utf8 cs).length + (utf8 ds).length := by
  rw [utf8, List.flatMap_append, List.length_append]
  rfl

/-- Characters of one byte. -/
def Ascii (chars : List Char) : Prop := ∀ c ∈ chars, c.utf8Size = 1

theorem Ascii.of_all {chars : List Char} (h : (chars.all fun c => c.utf8Size == 1) = true) :
    Ascii chars :=
  fun c hc => beq_iff_eq.mp (List.all_eq_true.mp h c hc)

theorem Ascii.length_utf8 {chars : List Char} (h : Ascii chars) :
    (utf8 chars).length = chars.length := by
  induction chars with
  | nil => rfl
  | cons c chars ih =>
    rw [length_utf8_cons, h c List.mem_cons_self,
      ih fun d hd => h d (List.mem_cons_of_mem _ hd), List.length_cons, Nat.add_comm]

theorem ascii_digitChar : ∀ n < 16, (Nat.digitChar n).utf8Size = 1 := by decide

theorem ascii_of_isDigit {c : Char} (h : c.isDigit = true) : c.utf8Size = 1 := by
  simp only [Char.isDigit, Bool.and_eq_true, decide_eq_true_eq] at h
  rw [Char.utf8Size_eq_one_iff]
  exact UInt32.le_trans h.2 (by decide)

theorem ascii_encodeInt (n : Int) : Ascii (encodeInt n) := by
  intro c hc
  rcases mem_encodeInt hc with h | rfl
  · exact ascii_of_isDigit h
  · decide

theorem ascii_encodeFloat (f : JsonFloat) : Ascii (encodeFloat f) := by
  cases f with
  | finite text =>
    intro c hc
    rcases (floatText_cases text).1 c hc with h | rfl | rfl | rfl | rfl
    · exact ascii_of_isDigit h
    · decide
    · decide
    · decide
    · decide
  | infinite negative => cases negative <;> exact Ascii.of_all (by decide)
  | nan => exact Ascii.of_all (by decide)

theorem length_escape (c : Char) : (utf8 (escape c)).length ≤ 6 := by
  rcases escape_cases c with ⟨h, -⟩ | ⟨e, -, h, hmem⟩ | ⟨-, h⟩
  · rw [h, length_utf8_cons]
    exact Nat.le_trans (Nat.add_le_add_right c.utf8Size_le_four _) (by decide)
  · have he : e.utf8Size = 1 := by
      have hall : ∀ p ∈ [('"', '"'), ('\\', '\\'), ('\n', 'n'), ('\r', 'r'), ('\t', 't'),
          ('\x08', 'b'), ('\x0c', 'f')], p.2.utf8Size = 1 := by decide
      exact hall _ hmem
    rw [h, length_utf8_cons, length_utf8_cons, he]
    decide
  · have hascii : Ascii (escape c) := by
      rw [h]
      intro d hd
      simp only [List.mem_cons, List.not_mem_nil, or_false] at hd
      rcases hd with rfl | rfl | rfl | rfl | rfl | rfl
      · decide
      · decide
      · decide
      · decide
      · exact ascii_digitChar _ (Nat.mod_lt _ (by decide))
      · exact ascii_digitChar _ (Nat.mod_lt _ (by decide))
    rw [hascii.length_utf8, h]
    rfl

theorem length_encodeText (chars : List Char) :
    (utf8 (encodeText chars)).length ≤ 6 * chars.length + 1 := by
  unfold encodeText
  induction chars with
  | nil => decide
  | cons c chars ih =>
    rw [List.flatMap_cons, List.append_assoc, length_utf8_append, List.length_cons]
    have := length_escape c
    omega

/-! ## Values -/

mutual
theorem length_encode : ∀ v : Json, (utf8 (encode v)).length ≤ weight v
  | .null => by rw [encode, weight]; decide
  | .bool true => by rw [encode, weight]; decide
  | .bool false => by rw [encode, weight]; decide
  | .num n => by rw [encode, weight, (ascii_encodeInt n).length_utf8]
  | .float f => by rw [encode, weight, (ascii_encodeFloat f).length_utf8]
  | .str s => by
    have := length_encodeText s.toList
    rw [encode, weight, length_utf8_cons, show '"'.utf8Size = 1 from rfl]
    rw [String.length_toList] at this
    omega
  | .arr [] => by rw [encode, weight, weightValues]; decide
  | .arr (v :: vs) => by
    have hv := length_encode v
    have hvs := length_encodeValues vs
    rw [encode, weight, weightValues, List.cons_append, length_utf8_cons, length_utf8_append,
      show '['.utf8Size = 1 from rfl]
    omega
  | .obj [] => by rw [encode, weight, weightFields]; decide
  | .obj ((key, v) :: fs) => by
    have hkey := length_encodeText key.toList
    have hv := length_encode v
    have hfs := length_encodeFields fs
    rw [String.length_toList] at hkey
    simp only [encode, weight, weightFields, List.cons_append, length_utf8_cons,
      length_utf8_append, show '{'.utf8Size = 1 from rfl, show '"'.utf8Size = 1 from rfl,
      show ':'.utf8Size = 1 from rfl]
    omega

theorem length_encodeValues : ∀ vs : List Json,
    (utf8 (encodeValues vs)).length ≤ weightValues vs + 1
  | [] => by rw [encodeValues, weightValues]; decide
  | v :: vs => by
    have hv := length_encode v
    have hvs := length_encodeValues vs
    rw [encodeValues, weightValues, List.cons_append, length_utf8_cons, length_utf8_append,
      show ','.utf8Size = 1 from rfl]
    omega

theorem length_encodeFields : ∀ fs : List (String × Json),
    (utf8 (encodeFields fs)).length ≤ weightFields fs + 1
  | [] => by rw [encodeFields, weightFields]; decide
  | (key, v) :: fs => by
    have hkey := length_encodeText key.toList
    have hv := length_encode v
    have hfs := length_encodeFields fs
    rw [String.length_toList] at hkey
    simp only [encodeFields, weightFields, List.cons_append, length_utf8_cons,
      length_utf8_append, show ','.utf8Size = 1 from rfl, show '"'.utf8Size = 1 from rfl,
      show ':'.utf8Size = 1 from rfl]
    omega
end

/-! ## Sorting keeps the weight -/

theorem weightFields_orderedInsert (f : String × Json) (fs : List (String × Json)) :
    weightFields (fs.orderedInsert (fun f g => f.1 ≤ g.1) f) = weightFields (f :: fs) := by
  induction fs with
  | nil => rfl
  | cons g fs ih =>
    rw [List.orderedInsert]
    split
    · rfl
    · rw [weightFields, ih]
      simp only [weightFields]
      omega

mutual
theorem weight_sortKeys : ∀ v : Json, weight (sortKeys v) = weight v
  | .null => rfl
  | .bool _ => rfl
  | .num _ => rfl
  | .float _ => rfl
  | .str _ => rfl
  | .arr values => by rw [sortKeys, weight, weight, weightValues_sortValues values]
  | .obj fields => by rw [sortKeys, weight, weight, weightFields_sortFields fields]

theorem weightValues_sortValues : ∀ vs : List Json, weightValues (sortValues vs) = weightValues vs
  | [] => rfl
  | v :: vs => by
    rw [sortValues, weightValues, weightValues, weight_sortKeys v, weightValues_sortValues vs]

theorem weightFields_sortFields : ∀ fs : List (String × Json),
    weightFields (sortFields fs) = weightFields fs
  | [] => rfl
  | (key, v) :: fs => by
    rw [sortFields, weightFields_orderedInsert, weightFields, weightFields, weight_sortKeys v,
      weightFields_sortFields fs]
end

theorem length_dumps_le (v : Json) : v.dumps.length ≤ v.weight := by
  rw [← weight_sortKeys v]
  exact length_encode (sortKeys v)

/-- A number of the range of the format has nineteen digits at most. -/
theorem weight_num_le {n : Int} (h : 0 ≤ n ∧ n ≤ 2 ^ 63 - 1) : weight (.num n) ≤ 19 := by
  rw [weight, encodeInt, if_neg (Int.not_lt.mpr h.1),
    Nat.length_toDigits_le_iff (by decide) (by decide)]
  omega

end RetailPrintGuard.Library.Json

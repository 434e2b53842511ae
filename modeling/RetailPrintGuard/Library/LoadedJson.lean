import RetailPrintGuard.Library.CanonicalJson

/-! # JSON as Python holds it

What a reader of JSON gives may hold a text with a lone surrogate, which UTF-8 has
no bytes for. Every other value is the value of a document. -/
namespace RetailPrintGuard.Library

def isSurrogate (point : Nat) : Bool := 0xD800 ≤ point && point ≤ 0xDFFF

/-- Code points with a lone surrogate. -/
abbrev LoneText := { points : List Nat // points.any isSurrogate = true }

/-- A text: one that UTF-8 has bytes for, or one with a lone surrogate. -/
inductive PyText where
  | text (value : String)
  | lone (points : LoneText)
deriving DecidableEq

def PyText.text? : PyText → Option String
  | .text value => some value
  | .lone _ => none

theorem PyText.text_beq (a b : String) : (PyText.text a == .text b) = (a == b) := by
  rw [Bool.eq_iff_iff, beq_iff_eq, beq_iff_eq, PyText.text.injEq]

inductive PyJson where
  | null
  | bool (value : Bool)
  | num (value : Int)
  | float (value : JsonFloat)
  | str (value : PyText)
  | arr (values : List PyJson)
  | obj (fields : List (PyText × PyJson))

namespace PyJson

/-! ## Objects -/

/-- The field of a key. -/
def get? (v : PyJson) (key : String) : Option PyJson :=
  match v with
  | .obj fields => fields.lookup (.text key)
  | _ => none

/-- An object without a key. -/
def erase (v : PyJson) (key : String) : PyJson :=
  match v with
  | .obj fields => .obj (fields.filter fun field => field.1 != .text key)
  | v => v

/-- The value is the text, or `None` where there is none. -/
def isText (v : PyJson) (expected : Option String) : Bool :=
  match v, expected with
  | .null, none => true
  | .str text, some expected => text == .text expected
  | _, _ => false

/-- At most so many objects and arrays in one another. -/
def shallow : Nat → PyJson → Bool
  | 0, .arr _ => false
  | 0, .obj _ => false
  | n + 1, .arr values => values.all (shallow n)
  | n + 1, .obj fields => fields.all fun field => shallow n field.2
  | _, _ => true

theorem shallow_mono {m n : Nat} (h : m ≤ n) {v : PyJson} (hv : v.shallow m = true) :
    v.shallow n = true := by
  induction m generalizing n v with
  | zero =>
    cases v with
    | arr values => cases hv
    | obj fields => cases hv
    | _ => cases n <;> rfl
  | succ m ih =>
    obtain ⟨n, rfl⟩ : ∃ k, n = k + 1 := ⟨n - 1, by omega⟩
    cases v with
    | arr values =>
      exact List.all_eq_true.mpr fun v hmem =>
        ih (by omega) (List.all_eq_true.mp hv v hmem)
    | obj fields =>
      exact List.all_eq_true.mpr fun field hmem =>
        ih (by omega) (List.all_eq_true.mp hv field hmem)
    | _ => rfl

/-! ## The values of documents -/

mutual
def ofJson : Json → PyJson
  | .null => .null
  | .bool b => .bool b
  | .num n => .num n
  | .float f => .float f
  | .str text => .str (.text text)
  | .arr values => .arr (ofValues values)
  | .obj fields => .obj (ofFields fields)

def ofValues : List Json → List PyJson
  | [] => []
  | v :: vs => ofJson v :: ofValues vs

def ofFields : List (String × Json) → List (PyText × PyJson)
  | [] => []
  | (key, v) :: fs => (.text key, ofJson v) :: ofFields fs
end

mutual
/-- The value of a document, if UTF-8 has bytes for its texts. -/
def toJson? : PyJson → Option Json
  | .null => some .null
  | .bool b => some (.bool b)
  | .num n => some (.num n)
  | .float f => some (.float f)
  | .str text => text.text?.map .str
  | .arr values => (toValues? values).map .arr
  | .obj fields => (toFields? fields).map .obj

def toValues? : List PyJson → Option (List Json)
  | [] => some []
  | v :: vs => do return (← toJson? v) :: (← toValues? vs)

def toFields? : List (PyText × PyJson) → Option (List (String × Json))
  | [] => some []
  | (key, v) :: fs => do return (← key.text?, ← toJson? v) :: (← toFields? fs)
end

/-- UTF-8 has bytes for every text of the value. -/
def encodes (v : PyJson) : Bool := v.toJson?.isSome

mutual
@[simp] theorem toJson?_ofJson : ∀ v : Json, (ofJson v).toJson? = some v
  | .null => rfl
  | .bool _ => rfl
  | .num _ => rfl
  | .float _ => rfl
  | .str _ => rfl
  | .arr values => by rw [ofJson, toJson?, toValues?_ofValues values, Option.map_some]
  | .obj fields => by rw [ofJson, toJson?, toFields?_ofFields fields, Option.map_some]

theorem toValues?_ofValues : ∀ values : List Json, toValues? (ofValues values) = some values
  | [] => rfl
  | v :: vs => by rw [ofValues, toValues?, toJson?_ofJson v, toValues?_ofValues vs]; rfl

theorem toFields?_ofFields : ∀ fields : List (String × Json),
    toFields? (ofFields fields) = some fields
  | [] => rfl
  | (key, v) :: fs => by rw [ofFields, toFields?, toJson?_ofJson v, toFields?_ofFields fs]; rfl
end

@[simp] theorem encodes_ofJson (v : Json) : (ofJson v).encodes = true := by
  rw [encodes, toJson?_ofJson, Option.isSome_some]

theorem encodes_obj {fields : List (PyText × PyJson)} : (PyJson.obj fields).encodes = true ↔
    ∀ field ∈ fields, field.1.text?.isSome = true ∧ field.2.encodes = true := by
  rw [encodes, toJson?, Option.isSome_map]
  induction fields with
  | nil => exact iff_of_true rfl (List.forall_mem_nil _)
  | cons field fields ih =>
    rw [List.forall_mem_cons, ← ih, toFields?, encodes]
    cases field.1.text? <;> cases field.2.toJson? <;> cases toFields? fields <;> simp

theorem encodes_ofFields (fields : List (String × Json)) :
    ∀ field ∈ ofFields fields, field.1.text?.isSome = true ∧ field.2.encodes = true :=
  encodes_obj.mp (encodes_ofJson (.obj fields))

theorem ofValues_eq (values : List Json) : ofValues values = values.map ofJson := by
  induction values with
  | nil => rfl
  | cons v vs ih => rw [ofValues, ih, List.map_cons]

theorem ofFields_eq (fields : List (String × Json)) :
    ofFields fields = fields.map fun field => (.text field.1, ofJson field.2) := by
  induction fields with
  | nil => rfl
  | cons field fields ih => rw [ofFields, ih, List.map_cons]

theorem ofJson_obj (fields : List (String × Json)) :
    ofJson (.obj fields) = .obj (fields.map fun field => (.text field.1, ofJson field.2)) := by
  rw [ofJson, ofFields_eq]

theorem get?_ofJson (v : Json) (key : String) : (ofJson v).get? key = (v.get? key).map ofJson := by
  cases v with
  | obj fields =>
    rw [ofJson_obj]
    show List.lookup (PyText.text key) _ = Option.map ofJson (fields.lookup key)
    induction fields with
    | nil => rfl
    | cons field fields ih =>
      rw [List.map_cons, List.lookup_cons, List.lookup_cons, ih]
      rw [PyText.text_beq]
      cases key == field.1 <;> rfl
  | _ => rfl

theorem lookup_toFields? {fields : List (PyText × PyJson)} {loaded : List (String × Json)}
    {key : String} {value : PyJson} (h : toFields? fields = some loaded)
    (hvalue : fields.lookup (.text key) = some value) : loaded.lookup key = value.toJson? := by
  induction fields generalizing loaded with
  | nil => cases hvalue
  | cons field fields ih =>
    obtain ⟨name, v⟩ := field
    simp only [toFields?, Option.bind_eq_bind, Option.bind_eq_some_iff, Option.pure_def,
      Option.some.injEq] at h
    obtain ⟨name', hname, w, hw, rest, hrest, rfl⟩ := h
    obtain rfl : name = .text name' := by
      cases name with
      | text name => exact congrArg _ (Option.some.inj hname)
      | lone points => cases hname
    rw [List.lookup_cons, PyText.text_beq] at hvalue
    rw [List.lookup_cons]
    split at hvalue
    · next heq =>
      cases hvalue
      exact hw.symm
    · next heq => exact ih hrest hvalue

/-- A field of the document is the field of the value. -/
theorem get?_toJson? {v value : PyJson} {document : Json} {key : String}
    (h : v.toJson? = some document) (hvalue : v.get? key = some value) :
    document.get? key = value.toJson? := by
  cases v with
  | obj fields =>
    rw [toJson?, Option.map_eq_some_iff] at h
    obtain ⟨loaded, hloaded, rfl⟩ := h
    exact lookup_toFields? hloaded hvalue
  | _ => cases hvalue

theorem erase_ofJson (v : Json) (key : String) : (ofJson v).erase key = ofJson (v.erase key) := by
  cases v with
  | obj fields =>
    rw [Json.erase, ofJson_obj, ofJson_obj, erase, List.filter_map]
    congr 2
    refine List.filter_congr fun field _ => ?_
    exact congrArg not (PyText.text_beq field.1 key)
  | _ => rfl

theorem shallow_ofJson {n : Nat} {v : Json} (h : v.plain n = true) : (ofJson v).shallow n = true := by
  induction n generalizing v with
  | zero =>
    cases v with
    | arr values => cases h
    | obj fields => cases h
    | _ => rfl
  | succ n ih =>
    cases v with
    | arr values =>
      rw [ofJson, ofValues_eq, shallow, List.all_map]
      exact List.all_eq_true.mpr fun v hv => ih (List.all_eq_true.mp h v hv)
    | obj fields =>
      rw [ofJson_obj, shallow, List.all_map]
      exact List.all_eq_true.mpr fun field hfield => ih (List.all_eq_true.mp h field hfield)
    | _ => rfl

theorem shallow_ofFields {n : Nat} {fields : List (String × Json)}
    (h : (Json.obj fields).plain (n + 1) = true) :
    ∀ field ∈ ofFields fields, field.2.shallow n = true := by
  have hobj := shallow_ofJson h
  rw [ofJson] at hobj
  exact List.all_eq_true.mp hobj

end PyJson
end RetailPrintGuard.Library

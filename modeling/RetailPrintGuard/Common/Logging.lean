import RetailPrintGuard.Common.PrintedText
import RetailPrintGuard.Library.UnknownText

/-! # Secrets in log texts -/
namespace RetailPrintGuard.Common.Logging
open RetailPrintGuard.Library.Regex RetailPrintGuard.Library.Substitution
open RetailPrintGuard.Library.UnknownText
open RetailPrintGuard.Common.PrintedText (Text lit oneOf isWhitespace)

/-! ## The rules -/

/-- A letter under `re.IGNORECASE`: four letters beyond ASCII are read as i, s and k. -/
def foldLetter (x : Char) : Char :=
  let n := x.toNat
  if 65 ≤ n && n ≤ 90 then Char.ofNat (n + 32)
  else if n == 0x130 || n == 0x131 then 'i'
  else if n == 0x17F then 's'
  else if n == 0x212A then 'k'
  else x

/-- `text` under `re.IGNORECASE`, for a text of small letters -/
def word (text : String) : Pattern := literal (fun letter x => letter == foldLetter x) text

/-- `[a-z]` under `re.IGNORECASE` -/
def isLetter (x : Char) : Bool := 'a' ≤ foldLetter x && foldLetter x ≤ 'z'

def isDecimalDigit (x : Char) : Bool := '0' ≤ x && x ≤ '9'

/-- `\w`; which characters beyond ASCII are letters or digits is a parameter. -/
def isWordCharacter (wide : Char → Bool) (x : Char) : Bool :=
  if x.toNat < 128 then isLetter x || isDecimalDigit x || x == '_' else wide x

/-- `\b` -/
def wordBoundary (wide : Char → Bool) : Pattern := .assert fun before after =>
  before.any (isWordCharacter wide) != after.head?.any (isWordCharacter wide)

def whitespace : Pattern := .char isWhitespace

/-- The names of keys whose values are taken. -/
def keyNames : Pattern :=
  alts [word "password", word "passwd", word "passphrase", word "token", word "secret",
    word "authorization", seqs [word "api", opt (oneOf "_-"), word "key"]]

/-- `_SECRET_KEY_RE` -/
def secretKey : Pattern :=
  alts [word "password", word "passwd", word "passphrase", word "token", word "secret",
    word "authorization", seqs [word "api", opt (oneOf "_-"), word "key"], word "credential"]

/-- `_KEY_VALUE_SECRET_RE` -/
def keyValueSecret (wide : Char → Bool) : Pattern :=
  seqs [wordBoundary wide, .group "1" keyNames,
    .group "2" (seqs [many whitespace, oneOf ":=", many whitespace]),
    .group "3" (many1 (.char fun x => !isWhitespace x && x != ',' && x != ';'))]

/-- `_URI_PASSWORD_RE` -/
def uriPassword : Pattern :=
  seqs [.group "1" (seqs [.char isLetter,
      many (.char fun x => isLetter x || isDecimalDigit x || ['+', '.', '-'].contains x), lit "://",
      many1 (.char fun x => !isWhitespace x && x != ':' && x != '/' && x != '@'), lit ":"]),
    many1 (.char fun x => !isWhitespace x && x != '/' && x != '@'), .group "2" (lit "@")]

/-- `_BEARER_RE` -/
def bearer (wide : Char → Bool) : Pattern :=
  seqs [wordBoundary wide, .group "1" (word "bearer"), many1 whitespace,
    many1 (.char fun x => isLetter x || isDecimalDigit x || "._~+/=-".toList.contains x)]

def maxText : Nat := 16384

def redacted : Text := "<redacted>".toList

def truncated : Text := "…<truncated>".toList

def bounded (value : Text) : Text :=
  if value.length ≤ maxText then value else value.take maxText ++ truncated

/-- `\1<redacted>\2` -/
def hideUri (m : Match) : Text := (m.group "1").getD [] ++ redacted ++ (m.group "2").getD []

/-- `\1\2<redacted>` -/
def hideValue (m : Match) : Text := (m.group "1").getD [] ++ (m.group "2").getD [] ++ redacted

/-- `\1 <redacted>` -/
def hideToken (m : Match) : Text := (m.group "1").getD [] ++ ' ' :: redacted

/-- `_redact_text` -/
def redactText (wide : Char → Bool) (value : Text) : Text :=
  let bounded := bounded value
  let bounded := sub uriPassword hideUri bounded
  let bounded := sub (keyValueSecret wide) hideValue bounded
  sub (bearer wide) hideToken bounded

example : redactText (fun _ => false) "database password=never-log Bearer abc.def.ghi".toList =
    "database password=<redacted> Bearer <redacted>".toList := by decide +kernel

/-! ## Templates -/

/-- The characters of a secret. -/
def secretCharacters : List Char :=
  "ABCDEFGHIJKLMNOPQRSTUVWXYZabcdefghijklmnopqrstuvwxyz0123456789._~-".toList

/-- A text whose secret characters are open. The mark of an open one is none of
those the redaction writes. -/
structure Template where
  text : Text
  secret : Char
  unwritten : secret ∉ ' ' :: (redacted ++ truncated)

def Template.unknown (template : Template) : Unknown := ⟨template.secret, secretCharacters⟩

/-- The template with something at each secret character. -/
def Template.Filled (template : Template) (text : Text) : Prop :=
  List.Forall₂ (fun x y => if x = template.secret then y ∈ secretCharacters else y = x)
    template.text text

instance (template : Template) (text : Text) : Decidable (template.Filled text) :=
  inferInstanceAs (Decidable (List.Forall₂ _ _ _))

/-- What stands at the secret characters is not seen in the output. -/
def Hides (wide : Char → Bool) (template : Template) : Prop :=
  ∀ text text', template.Filled text → template.Filled text' →
    redactText wide text = redactText wide text'

/-- The redaction of a template, unless a match of a rule depends on the secrets. -/
def redactTemplate (wide : Char → Bool) (template : Template) : Option Text := do
  let u := template.unknown
  let bounded := bounded template.text
  let bounded ← u.sub uriPassword hideUri bounded
  let bounded ← u.sub (keyValueSecret wide) hideValue bounded
  u.sub (bearer wide) hideToken bounded

/-! ## Conditions of the rules -/

variable {wide : Char → Bool} {template : Template}

theorem local_literal {p : Char → Char → Bool} {text : String} : Local (literal p text) := by
  unfold literal
  induction text.toList with
  | nil => trivial
  | cons c cs ih => exact ⟨trivial, ih⟩

theorem local_wordBoundary : Local (wordBoundary wide) := by
  intro before after
  cases after <;> rfl

theorem local_keyNames : Local keyNames :=
  ⟨local_literal, local_literal, local_literal, local_literal, local_literal, local_literal,
    local_literal, trivial, local_literal, trivial⟩

theorem local_uriPassword : Local uriPassword :=
  ⟨⟨trivial, trivial, local_literal, trivial, local_literal, trivial⟩, trivial, local_literal, trivial⟩

theorem local_keyValueSecret : Local (keyValueSecret wide) :=
  ⟨local_wordBoundary, local_keyNames, ⟨trivial, trivial, trivial, trivial⟩, trivial, trivial⟩

theorem local_bearer : Local (bearer wide) :=
  ⟨local_wordBoundary, local_literal, trivial, trivial, trivial⟩

/-! ## Fillings -/

section Fillings
variable {Q : Char → Char → Prop} (hQ : ∀ x y, Q x y → y ∈ template.unknown.options x)
  (hsame : ∀ x, x ≠ template.secret → Q x x)
include hsame

theorem alike_written {text : Text} (h : text ⊆ ' ' :: (redacted ++ truncated)) :
    List.Forall₂ Q text text :=
  List.forall₂_same.mpr fun x hx => hsame x fun heq => template.unwritten (heq ▸ h hx)

theorem bounded_alike {text : Text} (h : List.Forall₂ Q template.text text) :
    List.Forall₂ Q (bounded template.text) (bounded text) := by
  unfold bounded
  rw [h.length_eq]
  split
  · exact h
  · refine List.rel_append (List.forall₂_take _ h) (alike_written hsame ?_)
    exact List.subset_cons_of_subset _ (List.subset_append_right _ _)

theorem redacted_alike : List.Forall₂ Q redacted redacted :=
  alike_written hsame (List.subset_cons_of_subset _ (List.subset_append_left _ _))

theorem space_alike : Q ' ' ' ' := hsame ' ' fun heq => template.unwritten (heq ▸ List.mem_cons_self)

include hQ

/-- The redaction of a template is the one of its fillings. -/
theorem redactText_alike {text out : Text} (htext : List.Forall₂ Q template.text text)
    (h : redactTemplate wide template = some out) : List.Forall₂ Q out (redactText wide text) := by
  have hredacted := redacted_alike hsame
  obtain ⟨afterUri, huri, h⟩ := Option.bind_eq_some_iff.mp h
  obtain ⟨afterKeys, hkeys, hbearer⟩ := Option.bind_eq_some_iff.mp h
  have halike := sub_alike hQ local_uriPassword
    (fun _ _ hm => List.rel_append (List.rel_append (hm.group "1") hredacted) (hm.group "2"))
    (bounded_alike hsame htext) huri
  have halike := sub_alike hQ local_keyValueSecret
    (fun _ _ hm => List.rel_append (List.rel_append (hm.group "1") (hm.group "2")) hredacted)
    halike hkeys
  exact sub_alike hQ local_bearer
    (fun _ _ hm => List.rel_append (hm.group "1") (.cons (space_alike hsame) hredacted))
    halike hbearer

end Fillings

theorem options_secret : template.unknown.options template.secret = secretCharacters := if_pos rfl

theorem options_of_ne {x : Char} (h : x ≠ template.secret) : template.unknown.options x = [x] :=
  if_neg h

/-- The template with one character for all of its secret ones. -/
def Template.fill (template : Template) (secret : Char) (x : Char) : Char :=
  if x = template.secret then secret else x

theorem filled_fill {secret : Char} (h : secret ∈ secretCharacters) :
    template.Filled (template.text.map (template.fill secret)) := by
  refine List.forall₂_map_right_iff.mpr (List.forall₂_same.mpr fun x _ => ?_)
  unfold Template.fill
  split
  · exact h
  · rfl

theorem redactText_fill {secret : Char} (hsecret : secret ∈ secretCharacters) {out : Text}
    (h : redactTemplate wide template = some out) :
    redactText wide (template.text.map (template.fill secret)) = out.map (template.fill secret) := by
  have hQ : ∀ x y, y = template.fill secret x → y ∈ template.unknown.options x := by
    rintro x _ rfl
    unfold Template.fill
    split
    · next hx =>
      rw [hx, options_secret]
      exact hsecret
    · next hx =>
      rw [options_of_ne hx]
      exact List.mem_singleton_self x
  have hsame : ∀ x, x ≠ template.secret → x = template.fill secret x := fun x hx => (if_neg hx).symm
  have hfilled : List.Forall₂ (fun x y => y = template.fill secret x) template.text
      (template.text.map (template.fill secret)) :=
    List.forall₂_map_right_iff.mpr (List.forall₂_same.mpr fun _ _ => rfl)
  have halike := redactText_alike hQ hsame hfilled h
  have heq : List.Forall₂ Eq (out.map (template.fill secret))
      (redactText wide (template.text.map (template.fill secret))) :=
    List.forall₂_map_left_iff.mpr (halike.imp fun _ _ (hxy : _ = _) => hxy.symm)
  rw [List.forall₂_eq_eq_eq] at heq
  exact heq.symm

/-- A template whose secret characters are written as dots. -/
def dotted (text : String) : Template where
  text := text.toList
  secret := '●'
  unwritten := by decide

end RetailPrintGuard.Common.Logging

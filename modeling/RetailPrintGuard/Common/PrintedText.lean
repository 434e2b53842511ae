import RetailPrintGuard.Library.Regex

/-! # Text of the printer code pages

The text functions of the parsers, on the characters they decode: Latin-1 and
the code pages 437, 850, 858 and 1252. -/
namespace RetailPrintGuard.Common.PrintedText
open RetailPrintGuard.Library.Regex

abbrev Text := List Char

/-! ## Characters -/

/-- `str.isdecimal`, and `\d` in a pattern -/
def isDecimal (x : Char) : Bool := '0' ≤ x && x ≤ '9'

/-- `str.isdigit`: the superscripts count, `int` does not read them. -/
def isDigit (x : Char) : Bool := isDecimal x || x == '²' || x == '³' || x == '¹'

/-- `str.isspace`, and `\s` in a pattern -/
def isSpace (x : Char) : Bool :=
  let n := x.toNat
  (9 ≤ n && n ≤ 13) || (28 ≤ n && n ≤ 32) || n == 0x85 || n == 0xA0

/-- `str.isspace` beyond the code pages -/
def isWhitespace (x : Char) : Bool :=
  let n := x.toNat
  isSpace x || n == 0x1680 || (0x2000 ≤ n && n ≤ 0x200A) || n == 0x2028 || n == 0x2029 ||
    n == 0x202F || n == 0x205F || n == 0x3000

/-- `str.isalpha` -/
def isAlpha (x : Char) : Bool :=
  let n := x.toNat
  (65 ≤ n && n ≤ 90) || (97 ≤ n && n ≤ 122) || n == 0xAA || n == 0xB5 || n == 0xBA ||
    (0xC0 ≤ n && n ≤ 0xFF && n != 0xD7 && n != 0xF7) ||
    [0x131, 0x152, 0x153, 0x160, 0x161, 0x178, 0x17D, 0x17E, 0x192, 0x2C6, 0x393, 0x398, 0x3A3,
      0x3A6, 0x3A9, 0x3B1, 0x3B4, 0x3B5, 0x3C0, 0x3C3, 0x3C4, 0x3C6, 0x207F].contains n

/-- `str.isalnum`: the fractions are numeric. -/
def isAlnum (x : Char) : Bool := isAlpha x || isDigit x || x == '¼' || x == '½' || x == '¾'

/-- `\w` in a pattern -/
def isWord (x : Char) : Bool := isAlnum x || x == '_'

/-- `str.upper` on one character: `ß` becomes two. -/
def upperChar (x : Char) : Text :=
  let n := x.toNat
  if (97 ≤ n && n ≤ 122) || (0xE0 ≤ n && n ≤ 0xFE && n != 0xF7) then [Char.ofNat (n - 32)]
  else if n == 0xDF then ['S', 'S']
  else if n == 0xB5 then [Char.ofNat 0x39C]
  else if n == 0xFF then [Char.ofNat 0x178]
  else if n == 0x131 then ['I']
  else if n == 0x153 || n == 0x161 || n == 0x17E || n == 0x192 then [Char.ofNat (n - 1)]
  else if [0x3B1, 0x3B4, 0x3B5, 0x3C0, 0x3C3, 0x3C4, 0x3C6].contains n then [Char.ofNat (n - 32)]
  else [x]

def upper (text : Text) : Text := text.flatMap upperChar

/-- `str.lower` on one character, as far as a pattern or a word list sees it. -/
def lowerChar (x : Char) : Char :=
  let n := x.toNat
  if (65 ≤ n && n ≤ 90) || (0xC0 ≤ n && n ≤ 0xDE && n != 0xD7) then Char.ofNat (n + 32) else x

def lower (text : Text) : Text := text.map lowerChar

/-! ## Lines and words -/

/-- `str.strip(chars)` for a set of characters -/
def stripBy (p : Char → Bool) (text : Text) : Text :=
  ((text.dropWhile p).reverse.dropWhile p).reverse

/-- `str.strip()` -/
def strip (text : Text) : Text := stripBy isSpace text

/-- `str.rstrip()` -/
def rstrip (text : Text) : Text := (text.reverse.dropWhile isSpace).reverse

/-- The characters `str.splitlines` ends a line at; CR LF ends one line. -/
def isLineBreak (x : Char) : Bool :=
  let n := x.toNat
  (10 ≤ n && n ≤ 13) || (28 ≤ n && n ≤ 30) || n == 0x85

/-- `str.splitlines()`, with the line read so far, last character first. -/
def splitLinesFrom : Text → Text → List Text
  | line, [] => if line.isEmpty then [] else [line.reverse]
  | line, '\r' :: '\n' :: rest => line.reverse :: splitLinesFrom [] rest
  | line, x :: rest =>
    if isLineBreak x then line.reverse :: splitLinesFrom [] rest else splitLinesFrom (x :: line) rest

def splitLines (text : Text) : List Text := splitLinesFrom [] text

/-- `str.split()` -/
def split (text : Text) : List Text := (text.splitOnP isSpace).filter fun word => !word.isEmpty

/-- `separator.join(parts)` -/
def join (separator : Text) (parts : List Text) : Text := (parts.intersperse separator).flatten

/-- `" ".join(text.split())` -/
def collapse (text : Text) : Text := join [' '] (split text)

/-- `part in text` -/
def contains (text : Text) (part : String) : Bool :=
  text.tails.any fun rest => part.toList.isPrefixOf rest

/-- `text.startswith(parts)` -/
def startsWith (text : Text) (parts : List String) : Bool :=
  parts.any fun part => part.toList.isPrefixOf text

/-- `text.replace(old, new)` on one character -/
def replaceChar (old new : Char) (text : Text) : Text :=
  text.map fun x => if x == old then new else x

/-- `tuple(dict.fromkeys(values))` -/
def distinct (values : List String) : List String :=
  values.foldl (fun seen value => if seen.contains value then seen else seen ++ [value]) []

/-! ## Patterns -/

/-- A literal under `re.IGNORECASE`: the dotless i is an I. -/
def sameLetter (letter x : Char) : Bool :=
  lowerChar letter == (if x == 'ı' then 'i' else lowerChar x)

/-- `text` -/
def lit (text : String) : Pattern := literal (· == ·) text

/-- `text` under `re.IGNORECASE` -/
def ilit (text : String) : Pattern := literal sameLetter text

/-- `[chars]` -/
def oneOf (chars : String) : Pattern := .char chars.toList.contains

/-- `[A-Z0-9chars]` under `re.IGNORECASE` -/
def codeChar (chars : String) : Pattern :=
  .char fun x => isDecimal x || (65 ≤ x.toNat && x.toNat ≤ 90) || (97 ≤ x.toNat && x.toNat ≤ 122) ||
    x == 'ı' || chars.toList.contains x

/-- `\d` -/
def digit : Pattern := .char isDecimal

/-- `\s` -/
def space : Pattern := .char isSpace

/-- `.` -/
def dot : Pattern := .char (· != '\n')

/-- `^` -/
def start : Pattern := .assert fun before _ => before.isNone

/-- `$`: the end, or before a last newline -/
def finish : Pattern := .assert fun _ after => after == [] || after == ['\n']

/-- `\b` -/
def boundary : Pattern := .assert fun before after => before.any isWord != after.head?.any isWord

/-- `(?<!p)` -/
def notBehind (p : Char → Bool) : Pattern := .assert fun before _ => !before.any p

/-- `(?!p)` -/
def notAhead (p : Char → Bool) : Pattern := .assert fun _ after => !after.head?.any p

/-- `r{lo,hi}` -/
def times (lo hi : Nat) (r : Pattern) : Pattern := .rep true lo (some hi) r

end RetailPrintGuard.Common.PrintedText

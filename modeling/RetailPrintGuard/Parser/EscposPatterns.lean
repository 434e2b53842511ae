import RetailPrintGuard.Common.PrintedText

/-! # The patterns of the ESC/POS parser -/
namespace RetailPrintGuard.Parser.EscposPatterns
open RetailPrintGuard.Common.PrintedText RetailPrintGuard.Library.Regex

/-! ## Lines -/

/-- `(?<!\d)(?P<value>[+-]?\d{1,9}(?:\.\d{3})*,\d{2})(?!\d)` -/
def moneyRe : Pattern :=
  seqs [notBehind isDecimal,
    .group "value" (seqs [opt (oneOf "+-"), times 1 9 digit,
      many (.seq (lit ".") (times 3 3 digit)), lit ",", times 2 2 digit]),
    notAhead isDecimal]

/-- `[+-]?\d+(?:[.,]\d+)?` -/
def itemQuantity : Pattern :=
  seqs [opt (oneOf "+-"), many1 digit, opt (.seq (oneOf ".,") (many1 digit))]

/-- `^\s*(?P<quantity>…)\s*[xX]\s+(?P<description>\S.*)$` -/
def itemRe : Pattern :=
  seqs [start, many space, .group "quantity" itemQuantity, many space, oneOf "xX", many1 space,
    .group "description" (.seq (.char (!isSpace ·)) (many dot)), finish]

/-- `^\s*PORTATA\s*:\s*(?P<value>[A-Z0-9._/\-]+)\s*$` -/
def courseRe : Pattern :=
  seqs [start, many space, ilit "PORTATA", many space, lit ":", many space,
    .group "value" (many1 (codeChar "._/-")), many space, finish]

/-- `^\s*COPERTI\s*:\s*(?P<value>\d+)\s*$` -/
def coversRe : Pattern :=
  seqs [start, many space, ilit "COPERTI", many space, lit ":", many space,
    .group "value" (many1 digit), many space, finish]

/-- `^[\s\-_=.]{3,}$` -/
def separatorRe : Pattern :=
  seqs [start, .rep true 3 none (.char fun x => isSpace x || "-_=.".toList.contains x), finish]

/-- `^(?:OPERATORE|TAVOLO|ORDINE|COMANDA|PORTATA|COPERTI|DOCUMENTO|PRECONTO)\b` -/
def documentHeaderRe : Pattern :=
  seqs [start,
    alts [ilit "OPERATORE", ilit "TAVOLO", ilit "ORDINE", ilit "COMANDA", ilit "PORTATA",
      ilit "COPERTI", ilit "DOCUMENTO", ilit "PRECONTO"],
    boundary]

/-! ## Codes -/

/-- `\s*[:#-]?\s*(?P<value>[A-Z0-9._/\-]+)` -/
def codeBehind : List Pattern :=
  [many space, opt (oneOf ":#-"), many space, .group "value" (many1 (codeChar "._/-"))]

/-- `\bTAVOLO…` -/
def tableRe : Pattern := seqs ([boundary, ilit "TAVOLO"] ++ codeBehind)

/-- `\b(?:ORDINE|COMANDA)…` -/
def orderRe : Pattern := seqs ([boundary, alts [ilit "ORDINE", ilit "COMANDA"]] ++ codeBehind)

/-- `\b(?:DOCUMENTO|DOC\.?|PRECONTO|COMANDA)\s*(?:N\.?|#)?…` -/
def documentRe : Pattern :=
  seqs ([boundary,
    alts [ilit "DOCUMENTO", .seq (ilit "DOC") (opt (lit ".")), ilit "PRECONTO", ilit "COMANDA"],
    many space, opt (.alt (.seq (ilit "N") (opt (lit "."))) (lit "#"))] ++ codeBehind)

/-- `(?P<numeric>[O0-9]{1,8})(?P<suffix>(?:[/\-][A-Z0-9]{1,16})?)` under `re.IGNORECASE` -/
def numericOcrTableRe : Pattern :=
  .seq (.group "numeric" (times 1 8 (.char fun x => isDecimal x || x == 'O' || x == 'o')))
    (.group "suffix" (opt (.seq (oneOf "-/") (times 1 16 (codeChar "")))))

/-! ## Times -/

/-- `\bOPERATORE\s*[:#-]?\s*(?P<value>[^\r\n]*)` -/
def operatorLineRe : Pattern :=
  seqs [boundary, ilit "OPERATORE", many space, opt (oneOf ":#-"), many space,
    .group "value" (many (.char fun x => x != '\r' && x != '\n'))]

/-- `(?P<date>\d{2}[/\-]\d{2}[/\-]\d{2,4})\s+(?P<time>\d{2}:\d{2}(?::\d{2})?)` -/
def localTimestampRe : Pattern :=
  seqs [
    .group "date" (seqs [times 2 2 digit, oneOf "/-", times 2 2 digit, oneOf "/-",
      times 2 4 digit]),
    many1 space,
    .group "time" (seqs [times 2 2 digit, lit ":", times 2 2 digit,
      opt (.seq (lit ":") (times 2 2 digit))])]

/-! ## Kinds -/

/-- `(?m)^` -/
def lineStart : Pattern := .assert fun before _ => before.all (· == '\n')

/-- `[ \t]` -/
def blank : Pattern := oneOf " \t"

/-- `(?m)^[ \t]*-\d+(?:[.,]\d+)?[ \t]*[xX][ \t]+` -/
def decreaseRe : Pattern :=
  seqs [lineStart, many blank, lit "-", many1 digit, opt (.seq (oneOf ".,") (many1 digit)),
    many blank, oneOf "xX", many1 blank]

/-- `\b\d+\s*[xX]\s+` -/
def countedRe : Pattern := seqs [boundary, many1 digit, many space, oneOf "xX", many1 space]

end RetailPrintGuard.Parser.EscposPatterns

import RetailPrintGuard.Common.PrintedText

/-! # The patterns of the RCH parser -/
namespace RetailPrintGuard.Parser.RchPatterns
open RetailPrintGuard.Common.PrintedText RetailPrintGuard.Library.Regex

/-- `[+-]?\d+` -/
def signedDigits : Pattern := .seq (opt (oneOf "+-")) (many1 digit)

/-! ## Commands -/

/-- `^=R([^/]+)/\$([+-]?\d+)(?:/\*([+-]?\d+))?/\((.*)\)$` -/
def itemRe : Pattern :=
  seqs [start, lit "=R", .group "code" (many1 (.char (· != '/'))), lit "/$",
    .group "amount" signedDigits, opt (.seq (lit "/*") (.group "quantity" signedDigits)),
    lit "/(", .group "description" (many dot), lit ")", finish]

/-- `^=T([^/]+)/\$([+-]?\d+)$` -/
def totalRe : Pattern :=
  seqs [start, lit "=T", .group "code" (many1 (.char (· != '/'))), lit "/$",
    .group "amount" signedDigits, finish]

/-- `(?:/\*(\d+))?$` -/
def style : Pattern := .seq (opt (.seq (lit "/*") (.group "style" (many1 digit)))) finish

/-- `^="/\?A/\((.*)\)(?:/\*(\d+))?$` -/
def commercialTextRe : Pattern :=
  seqs [start, lit "=\"/?A/(", .group "text" (many dot), lit ")", style]

/-- `^="/\((.*)\)(?:/\*(\d+))?$` -/
def managementTextRe : Pattern :=
  seqs [start, lit "=\"/(", .group "text" (many dot), lit ")", style]

/-- `<</\?\d` -/
def closeRe : Pattern := .seq (lit "<</?") digit

/-! ## Responses -/

/-- `^s(\d{6})RE(\d{4})$` -/
def counterRe : Pattern :=
  seqs [start, lit "s", .group "status_digits" (times 6 6 digit), lit "RE",
    .group "counter" (times 4 4 digit), finish]

/-- `^ES(\d{8})$` -/
def errorResponseRe : Pattern := seqs [start, lit "ES", .group "code" (times 8 8 digit), finish]

/-- `^(?:ON\d{8}|s\d{6}RE\d{4}|\d{4})$` -/
def successResponseRe : Pattern :=
  seqs [start,
    alts [.seq (lit "ON") (times 8 8 digit),
      seqs [lit "s", times 6 6 digit, lit "RE", times 4 4 digit], times 4 4 digit],
    finish]

/-! ## Printed codes -/

/-- `^\s*#?\s*(?:ORDINE|ORDER)\s*:\s*(.*?)\s*$` -/
def orderRe : Pattern :=
  seqs [start, many space, opt (lit "#"), many space, alts [ilit "ORDINE", ilit "ORDER"],
    many space, lit ":", many space, .group "value" (.rep false 0 none dot), many space, finish]

/-- `^\s*TAVOLO\s*:\s*(.*?)\s*$` -/
def tableRe : Pattern :=
  seqs [start, many space, ilit "TAVOLO", many space, lit ":", many space,
    .group "value" (.rep false 0 none dot), many space, finish]

/-- `(?:\.|°|º)?` -/
def numeroSign : Pattern := opt (oneOf ".°º")

/-- `([A-Z0-9]+(?:[/\-][A-Z0-9]+)+)\b` -/
def codeValue : Pattern :=
  .seq (.group "value" (.seq (many1 (codeChar ""))
    (many1 (.seq (oneOf "-/") (many1 (codeChar "")))))) boundary

/-- `DOC(?:UMENTO)?\.?` -/
def docWord : Pattern := seqs [ilit "DOC", opt (ilit "UMENTO"), opt (lit ".")]

/-- `\b(?:DOC(?:UMENTO)?\.?\s*(?:GESTIONALE)?\s*N(?:\.|°|º)?|N(?:\.|°|º)?)\s*…` -/
def documentCodeRe : Pattern :=
  seqs [boundary,
    alts [seqs [docWord, many space, opt (ilit "GESTIONALE"), many space, ilit "N", numeroSign],
      .seq (ilit "N") numeroSign],
    many space, codeValue]

/-- `\bDOC(?:UMENTO)?\.?\s*GESTIONALE\s*N(?:\.|°|º)?\s*…` -/
def managementDocumentCodeRe : Pattern :=
  seqs [boundary, docWord, many space, ilit "GESTIONALE", many space, ilit "N", numeroSign,
    many space, codeValue]

/-- `\bDOCUMENTO(?:\s+COMMERCIALE)?\s+N(?:\.|°|º)?\s*…` -/
def commercialDocumentCodeRe : Pattern :=
  seqs [boundary, ilit "DOCUMENTO", opt (.seq (many1 space) (ilit "COMMERCIALE")), many1 space,
    ilit "N", numeroSign, many space, codeValue]

/-- `DOCUMENTO\s+COMMERCIALE` -/
def commercialDocumentWords : Pattern :=
  seqs [ilit "DOCUMENTO", many1 space, ilit "COMMERCIALE"]

/-- `\b(?:RIF(?:ERIMENTO)?\.?\s*(?:AL\s+)?(?:DOCUMENTO\s+COMMERCIALE|DOCUMENTO)
|DOCUMENTO\s+COMMERCIALE(?:\s+DI\s+RIFERIMENTO)?
|COPIA\s+CONFORME(?:\s+DEL)?\s+DOCUMENTO)\s*N(?:\.|°|º)?\s*…` -/
def commercialReferenceCodeRe : Pattern :=
  seqs [boundary,
    alts [
      seqs [ilit "RIF", opt (ilit "ERIMENTO"), opt (lit "."), many space,
        opt (.seq (ilit "AL") (many1 space)), alts [commercialDocumentWords, ilit "DOCUMENTO"]],
      .seq commercialDocumentWords
        (opt (seqs [many1 space, ilit "DI", many1 space, ilit "RIFERIMENTO"])),
      seqs [ilit "COPIA", many1 space, ilit "CONFORME", opt (.seq (many1 space) (ilit "DEL")),
        many1 space, ilit "DOCUMENTO"]],
    many space, ilit "N", numeroSign, many space, codeValue]

/-! ## Printed amounts -/

/-- `(?<!\d)([+-]?\d{1,9}(?:\.\d{3})*,\d{2})(?!\d)` -/
def printedMoneyRe : Pattern :=
  seqs [notBehind isDecimal,
    .group "value" (seqs [opt (oneOf "+-"), times 1 9 digit,
      many (.seq (lit ".") (times 3 3 digit)), lit ",", times 2 2 digit]),
    notAhead isDecimal]

/-- `^\s*(?:TOT|TOTALE(?:\s+COMPLESSIVO)?)\b(.*)$` -/
def printedTotalRe : Pattern :=
  seqs [start, many space,
    alts [ilit "TOT", .seq (ilit "TOTALE") (opt (.seq (many1 space) (ilit "COMPLESSIVO")))],
    boundary, .group "tail" (many dot), finish]

/-- `^\s*(CONTANTI|CARTA|BANCOMAT|ASSEGNO|PAGAMENTO)\b(.*)$` -/
def paymentRe : Pattern :=
  seqs [start, many space,
    .group "method" (alts [ilit "CONTANTI", ilit "CARTA", ilit "BANCOMAT", ilit "ASSEGNO",
      ilit "PAGAMENTO"]),
    boundary, .group "tail" (many dot), finish]

/-! ## Printed times -/

/-- `(?<!\d)(\d{2})[/\\.\-](\d{2})[/\\.\-](\d{2}|\d{4})\s+(\d{2}):(\d{2})(?::(\d{2}))?(?!\d)` -/
def printedTimestampRe : Pattern :=
  seqs [notBehind isDecimal, .group "day" (times 2 2 digit), oneOf "/\\.-",
    .group "month" (times 2 2 digit), oneOf "/\\.-",
    .group "year" (alts [times 2 2 digit, times 4 4 digit]), many1 space,
    .group "hour" (times 2 2 digit), lit ":", .group "minute" (times 2 2 digit),
    opt (.seq (lit ":") (.group "second" (times 2 2 digit))), notAhead isDecimal]

/-! ## Serial numbers -/

/-- `^\s*RT\s*[:#-]?\s*([A-Z0-9]{8,32})\s*$` -/
def explicitRchSerialRe : Pattern :=
  seqs [start, many space, ilit "RT", many space, opt (oneOf ":#-"), many space,
    .group "value" (times 8 32 (codeChar "")), many space, finish]

/-- `^\s*([A-Z0-9]{8,32})\s*$` -/
def bareRchSerialRe : Pattern :=
  seqs [start, many space, .group "value" (times 8 32 (codeChar "")), many space, finish]

/-! ## Kinds of management output -/

/-- `REPORT\s+DI\s+FINE\s+TURNO` -/
def shiftEndWords : Pattern :=
  seqs [ilit "REPORT", many1 space, ilit "DI", many1 space, ilit "FINE", many1 space, ilit "TURNO"]

/-- `^\s*REPORT\s+DI\s+FINE\s+TURNO\b` -/
def shiftEndReportHeaderRe : Pattern := seqs [start, many space, shiftEndWords, boundary]

/-- `FATTURA(?:\s+ELETTRONICA)?` -/
def invoiceWords : Pattern := .seq (ilit "FATTURA") (opt (.seq (many1 space) (ilit "ELETTRONICA")))

/-- `^\s*FATTURA(?:\s+ELETTRONICA)?\s*$` -/
def invoiceHeaderRe : Pattern := seqs [start, many space, invoiceWords, many space, finish]

/-- `(?:N(?:R)?(?:\.|°|º)?|NUMERO)` -/
def numberWords : Pattern := alts [seqs [ilit "N", opt (ilit "R"), numeroSign], ilit "NUMERO"]

/-- `^\s*(?:FATTURA(?:\s+ELETTRONICA)?\s+(?:N(?:R)?(?:\.|°|º)?|NUMERO)
|(?:N(?:R)?(?:\.|°|º)?|NUMERO)\s+FATTURA)
\s*[:#-]?\s*((?=[-A-Z0-9./]*\d)[A-Z0-9][-A-Z0-9./]\x7b0,63\x7d)\s*$` -/
def invoiceNumberRe : Pattern :=
  seqs [start, many space,
    alts [seqs [invoiceWords, many1 space, numberWords],
      seqs [numberWords, many1 space, ilit "FATTURA"]],
    many space, opt (oneOf ":#-"), many space,
    .group "value" (seqs [.look (.seq (many (codeChar "./-")) digit), codeChar "",
      times 0 63 (codeChar "./-")]),
    many space, finish]

/-! ## The merchant heading -/

/-- `^\s*(?:DOCUMENTO\s+(?:GESTIONALE|COMMERCIALE)|REPORT\s+DI\s+FINE\s+TURNO
|FATTURA(?:\s+ELETTRONICA)?|PRECONTO|COMANDA|DESCRIZIONE|TOTALE?|TOT\b|ORDINE\s*:|TAVOLO\s*:)` -/
def headerBoundaryRe : Pattern :=
  seqs [start, many space,
    alts [
      seqs [ilit "DOCUMENTO", many1 space, alts [ilit "GESTIONALE", ilit "COMMERCIALE"]],
      shiftEndWords, invoiceWords, ilit "PRECONTO", ilit "COMANDA", ilit "DESCRIZIONE",
      .seq (ilit "TOTAL") (opt (ilit "E")), .seq (ilit "TOT") boundary,
      seqs [ilit "ORDINE", many space, lit ":"], seqs [ilit "TAVOLO", many space, lit ":"]]]

/-- One letter, a full stop if there is one, and blanks. -/
def initial (letter : String) : Pattern := seqs [ilit letter, opt (lit "."), many space]

/-- `\b(?:S\.?\s*R\.?\s*L\.?|S\.?\s*P\.?\s*A\.?|S\.?\s*A\.?\s*S\.?
|S\.?\s*N\.?\s*C\.?|SOC(?:IETA|IETÀ)|COOPERATIVA)(?!\w)` -/
def headerLegalNameRe : Pattern :=
  seqs [boundary,
    alts [
      seqs [initial "S", initial "R", ilit "L", opt (lit ".")],
      seqs [initial "S", initial "P", ilit "A", opt (lit ".")],
      seqs [initial "S", initial "A", ilit "S", opt (lit ".")],
      seqs [initial "S", initial "N", ilit "C", opt (lit ".")],
      .seq (ilit "SOC") (alts [ilit "IETA", ilit "IETÀ"]), ilit "COOPERATIVA"],
    notAhead isWord]

/-- `^\s*(?:VIA|VIALE|PIAZZA|PIAZZALE|CORSO|LARGO|LOCALITA|LOCALITÀ|LOC\.?
|STRADA|CONTRADA)\b|^\s*\d\x7b5\x7d\b` -/
def headerAddressRe : Pattern :=
  .alt
    (seqs [start, many space,
      alts [ilit "VIA", ilit "VIALE", ilit "PIAZZA", ilit "PIAZZALE", ilit "CORSO", ilit "LARGO",
        ilit "LOCALITA", ilit "LOCALITÀ", .seq (ilit "LOC") (opt (lit ".")), ilit "STRADA",
        ilit "CONTRADA"],
      boundary])
    (seqs [start, many space, times 5 5 digit, boundary])

/-- `\b(?:TEL(?:EFONO)?|PHONE)\b\s*[:.]?\s*(\+?[\d][\d ()/.-]\x7b3,62\x7d)\s*$` -/
def headerPhoneRe : Pattern :=
  seqs [boundary, alts [.seq (ilit "TEL") (opt (ilit "EFONO")), ilit "PHONE"], boundary, many space,
    opt (oneOf ":."), many space,
    .group "value" (seqs [opt (lit "+"), digit, times 3 62 (.char fun x => isDecimal x ||
      " ()/.-".toList.contains x)]),
    many space, finish]

/-- `\bC\.?\s*F\.?(?!\w)` -/
def headerTaxLabelRe : Pattern :=
  seqs [boundary, initial "C", ilit "F", opt (lit "."), notAhead isWord]

/-- `\s*[:\-]?\s*([A-Z0-9]\x7b8,32\x7d)\b` -/
def taxValue : Pattern :=
  seqs [many space, opt (oneOf ":-"), many space, .group "value" (times 8 32 (codeChar "")), boundary]

/-- `\bC\.?\s*F\.?(?!\w)\s*[:\-]?\s*…` -/
def headerTaxCodeRe : Pattern := .seq headerTaxLabelRe taxValue

/-- `\bP\.?\s*(?:IVA|I\.?\s*V\.?\s*A\.?)\b\s*[:\-]?\s*…` -/
def headerVatRe : Pattern :=
  seqs [boundary, initial "P",
    alts [ilit "IVA", seqs [initial "I", initial "V", ilit "A", opt (lit ".")]],
    boundary, taxValue]

end RetailPrintGuard.Parser.RchPatterns

import RetailPrintGuard.Fraud.Findings

/-! # The rules of the fraud engine

Each rule reads a context and returns the data of a finding, or nothing. -/
namespace RetailPrintGuard.Fraud.Rules
open RetailPrintGuard.Common.Python RetailPrintGuard.Common.Domain
open RetailPrintGuard.Correlation.Lines RetailPrintGuard.Correlation.Scoring
open RetailPrintGuard.Correlation.Engine RetailPrintGuard.Fraud.Findings

/-! ## Amounts and times -/

/-- `str` of an amount with four decimals. -/
def decimalText (amount : Int) : String :=
  let units := amount.natAbs
  let digit (n : Nat) : String := toString (n % 10)
  (if amount < 0 then "-" else "") ++ toString (units / 10000) ++ "." ++ digit (units / 1000) ++
    digit (units / 100) ++ digit (units / 10) ++ digit units

/-- `str` of an optional amount. -/
def optionalText (amount : Option Int) : String := (amount.map decimalText).getD "None"

/-- `_valid_fiscal_document` -/
def validFiscalDocument (document : NormalizedDocument) : Bool :=
  document.type == .commercialDocument && document.complete && document.total.isSome

/-- A management document that settles the sale without a receipt. -/
def managementClose (document : NormalizedDocument) : Bool :=
  document.type == .managementDocument && document.total.isSome && document.economicClose

/-- `raw_metadata.get("settlement_kind") == "ROOM_CHARGE"` -/
def roomCharge (document : NormalizedDocument) : Bool :=
  document.rawMetadata.get "settlement_kind" == .str "ROOM_CHARGE"

/-- `max(times)`: the first of the latest. -/
def latestTime : List Timestamp → Option Timestamp
  | [] => none
  | time :: times =>
    some (times.foldl (fun best next => if best.micros < next.micros then next else best) time)

/-- `min(times)`: the first of the earliest. -/
def earliestTime : List Timestamp → Option Timestamp
  | [] => none
  | time :: times =>
    some (times.foldl (fun best next => if next.micros < best.micros then next else best) time)

/-- `timedelta(minutes=n)`, in microseconds. -/
def minutes (n : Int) : Int := n * 60000000

/-- The values in the order they first appear. -/
def firstSeen {α : Type} [BEq α] (values : List α) : List α := values.eraseDups

/-! ## The reduction after the prebill -/

/-- `difference < minimum_amount or percent < minimum_percent` -/
def belowThresholds (rule : RuleDefinition) (difference percent : Int) : Bool :=
  decide (difference < (rule.parameter "minimum_amount" ⟨10000, "1"⟩).value) ||
    decide (percent < (rule.parameter "minimum_percent" ⟨200000, "20"⟩).value)

def postPrebillChange (context : FraudContext) (rule : RuleDefinition) : Option FindingData :=
  let tx := context.transaction
  let closures := tx.documents.filter fun document =>
    validFiscalDocument document || document.type == .cancellation || managementClose document
  let difference := tx.differenceAmount.getD 0
  let percent := tx.differencePercent.getD 0
  match tx.prebillTotal with
  | none => none
  | some prebillTotal =>
    if prebillTotal ≤ 0 || closures.isEmpty || belowThresholds rule difference percent then none
    else
      let lineEvidence := (tx.lineChanges.filter fun change =>
        change.changeType != .unchanged).map fun change =>
          Evidence.postPrebillLineChange change.changeType change.itemKey change.description
            change.beforeQuantity change.afterQuantity change.beforeUnitPrice change.afterUnitPrice
      let statusEvidence := Evidence.postPrebillEconomicOutcome prebillTotal tx.observedFinalTotal
        tx.fiscalTotal difference percent (closures.any validFiscalDocument)
        (closures.any fun document => document.type == .cancellation || !document.complete)
        (closures.any roomCharge)
      some
        { description := "Riduzione del valore di vendita dopo il preconto"
          explanation :=
            "Il preconto era " ++ decimalText prebillTotal ++
              " EUR; l'esito economico osservato e' " ++ decimalText tx.observedFinalTotal ++
              " EUR, con differenza " ++ decimalText difference ++ " EUR (" ++
              decimalText percent ++ "%). L'esito fiscale puo' essere annullato, parziale o non " ++
              "conclusivo e richiede revisione umana."
          evidence := statusEvidence :: lineEvidence
          score := min 100 (70 + (percent * 3).tdiv 100000)
          confidence := if tx.correlation.isSome then 95 else 70
          documentIds := tx.documents.map (·.id) }

def amountEvidence (context : FraudContext)
    (sharedReferences : Option (List (String × List UUID))) : Evidence :=
  let transaction := context.transaction
  .amountComparison transaction.prebillTotal transaction.fiscalTotal transaction.differenceAmount
    transaction.differencePercent transaction.splitPayment sharedReferences

def prebillAmountDrop (context : FraudContext) (rule : RuleDefinition) : Option FindingData :=
  let tx := context.transaction
  let difference := tx.differenceAmount.getD 0
  let percent := tx.differencePercent.getD 0
  match tx.prebillTotal with
  | none => none
  | some prebillTotal =>
    if prebillTotal ≤ 0 || !tx.documents.any validFiscalDocument ||
        belowThresholds rule difference percent then none
    else
      some
        { description := "Riduzione significativa tra preconto e totale fiscale"
          explanation :=
            "Il preconto è " ++ decimalText prebillTotal ++
              " EUR e i documenti fiscali correlati sommano " ++ decimalText tx.fiscalTotal ++
              " EUR: riduzione " ++ decimalText difference ++ " EUR (" ++ decimalText percent ++
              "%)."
          evidence := [amountEvidence context none]
          score := min 100 (60 + (percent * 6).tdiv 100000)
          confidence := if tx.correlation.isSome then 95 else 65 }

def itemRemoved (context : FraudContext) (_ : RuleDefinition) : Option FindingData :=
  let removed := context.transaction.lineChanges.filter fun change => change.changeType == .removed
  if removed.isEmpty then none
  else
    some
      { description := "Articoli rimossi dopo il preconto"
        explanation := "Rilevate " ++ toString removed.length ++
          " righe presenti nel preconto ma assenti nel fiscale."
        evidence := removed.map fun item =>
          .lineRemoved item.itemKey item.description item.beforeQuantity item.beforeTotal
            item.beforeSource
        score := min 100 (65 + removed.length * 8)
        confidence := 90 }

/-- The record of a unit price that went down. -/
def reducedPrice (item : LineChange) : Option Evidence :=
  match item.beforeUnitPrice, item.afterUnitPrice with
  | some before, some after =>
    if item.changeType != .added && item.changeType != .removed && after < before then
      some (.priceReduction item.itemKey item.description before after (before - after)
        item.beforeSource item.afterSource)
    else none
  | _, _ => none

def priceReduced (context : FraudContext) (_ : RuleDefinition) : Option FindingData :=
  let changed := context.transaction.lineChanges.filterMap reducedPrice
  if changed.isEmpty then none
  else
    some
      { description := "Prezzo ridotto dopo il preconto"
        explanation := "Rilevate " ++ toString changed.length ++ " riduzioni di prezzo unitario."
        evidence := changed
        score := min 100 (65 + changed.length * 10)
        confidence := 90 }

/-- The percentage a unit price lost, when it reaches the threshold. -/
def extremeReduction (threshold : Int) (item : LineChange) : Option (Int × Evidence) :=
  match item.beforeUnitPrice, item.afterUnitPrice with
  | some before, some after =>
    let percent := roundHalfEven ((before - after) * 1000000) before
    if 0 < before && after < before && threshold ≤ percent then
      some (percent, .extremePriceReduction item.itemKey item.description before after percent)
    else none
  | _, _ => none

def extremePriceChange (context : FraudContext) (rule : RuleDefinition) : Option FindingData :=
  let threshold := rule.parameter "minimum_percent" ⟨700000, "70"⟩
  let extreme := context.transaction.lineChanges.filterMap (extremeReduction threshold.value)
  match (extreme.map Prod.fst).max? with
  | none => none
  | some highest =>
    some
      { description := "Variazione estrema del prezzo"
        explanation := "Almeno un prezzo è stato ridotto del " ++ decimalText highest ++
          "%, oltre la soglia " ++ threshold.text ++ "%."
        evidence := extreme.map Prod.snd
        score := min 100 (75 + highest.tdiv 50000)
        confidence := 92 }

section
variable (rt : Runtime)

/-- The references of a document, normalised. -/
def documentReferences (document : NormalizedDocument) : List String :=
  let metadata := ["reference", "order_reference", "document_reference",
    "transaction_reference"].filterMap fun key =>
      match document.rawMetadata.get key with
      | .null => none
      | value => some value.text
  ([document.orderCode, document.externalDocumentCode].filterMap id ++ metadata).filterMap
    fun reference =>
      let normalized := " ".intercalate (rt.words (rt.upper reference))
      if normalized = "" then none else some normalized

/-- The references two or more documents carry, with these documents. -/
def sharedReferenceDocuments (documents : List NormalizedDocument) : List (String × List UUID) :=
  let references := ((documents.flatMap (documentReferences rt)).dedup).insertionSort (· ≤ ·)
  (references.map fun reference =>
    (reference, (((documents.filter fun document =>
      (documentReferences rt document).contains reference).map (·.id)).dedup).insertionSort
        (· ≤ ·))).filter fun entry => 2 ≤ entry.2.length

def sameReferenceDifferentAmount (context : FraudContext) (rule : RuleDefinition) :
    Option FindingData :=
  let tx := context.transaction
  let shared := sharedReferenceDocuments rt tx.documents
  let difference : Int := (tx.differenceAmount.getD 0).natAbs
  if shared.isEmpty || tx.prebillTotal.isNone || !tx.documents.any validFiscalDocument ||
      decide (difference < (rule.parameter "minimum_amount" ⟨10000, "1"⟩).value) then none
  else
    some
      { description := "Stesso riferimento con importi differenti"
        explanation :=
          "Il riferimento condiviso collega il preconto al totale fiscale aggregato, " ++
            "ma gli importi differiscono di " ++ decimalText difference ++ " EUR."
        evidence := [amountEvidence context (some shared)]
        score := min 100 (65 + difference.tdiv 10000)
        confidence := 90 }

/-! ## Missing counterparts -/

def orderWithoutFiscalClose (context : FraudContext) (rule : RuleDefinition) :
    Option FindingData :=
  let documents := context.transaction.documents
  let sources := documents.filter fun document =>
    document.type == .order || document.type == .preBill
  let economicClose := documents.any fun document =>
    validFiscalDocument document || managementClose document
  let limit := (rule.parameter "close_minutes" ⟨1200000, "120"⟩).whole
  match latestTime (sources.map NormalizedDocument.documentTime) with
  | none => none
  | some latest =>
    if economicClose || context.evaluatedAt.micros - latest.micros < minutes limit then none
    else
      some
        { description := "Ordine senza chiusura fiscale"
          explanation := "Nessun documento fiscale osservato entro " ++ toString limit ++
            " minuti."
          evidence := [.missingFiscalClose latest limit]
          score := 70
          confidence := 75
          documentIds := sources.map (·.id) }

def fiscalWithoutSourceOrder (context : FraudContext) (_ : RuleDefinition) : Option FindingData :=
  let documents := context.transaction.documents
  let fiscals := documents.filter fun document => document.type == .commercialDocument
  if fiscals.isEmpty || documents.any (fun document => sourceTypes document.type) then none
  else
    some
      { description := "Documento fiscale senza ordine sorgente"
        explanation := "Il documento fiscale non è correlato a comanda, ordine o preconto."
        evidence := fiscals.map fun document =>
          .orphanFiscalDocument document.id document.externalDocumentCode document.total
        score := 65
        confidence := 70
        documentIds := fiscals.map (·.id) }

/-! ## Order events -/

def excessiveVoid (context : FraudContext) (rule : RuleDefinition) : Option FindingData :=
  let cancellationIds := ((context.transaction.documents.filter fun document =>
    document.type == .cancellation || document.type == .refund).map (·.id)).dedup
  let removalEvents := context.orderEvents.filter fun event =>
    event.type == .itemRemoved && !event.sourceDocumentId.any cancellationIds.contains
  let voidEvents := context.orderEvents.filter fun event => event.type == .orderVoided
  let representedCancellations := (voidEvents.filterMap (·.sourceDocumentId)).dedup
  let count := removalEvents.length + representedCancellations.length +
    (voidEvents.filter fun event => event.sourceDocumentId.isNone).length +
    (cancellationIds.filter fun id => !representedCancellations.contains id).length
  let threshold := (rule.parameter "minimum_count" ⟨30000, "3"⟩).whole
  if count < threshold then none
  else
    some
      { description := "Frequenza elevata di annulli o rimozioni"
        explanation := "La transazione contiene " ++ toString count ++
          " annulli/rimozioni; soglia " ++ toString threshold ++ "."
        evidence := [.voidFrequency count threshold
          ((removalEvents ++ voidEvents).map (·.id)) (cancellationIds.insertionSort (· ≤ ·))]
        score := min 100 (60 + count * 8)
        confidence := 85 }

def reprintAnomaly (context : FraudContext) (rule : RuleDefinition) : Option FindingData :=
  let copies := context.transaction.documents.filter fun document =>
    document.type == .reprint || document.type == .conformingCopy
  let maximum := (rule.parameter "maximum_count" ⟨20000, "2"⟩).whole
  if copies.length ≤ maximum then none
  else
    some
      { description := "Numero anomalo di ristampe o copie conformi"
        explanation := "Osservate " ++ toString copies.length ++
          " copie/ristampe; limite configurato " ++ toString maximum ++ "."
        evidence := copies.map fun document =>
          .copyOrReprint document.id document.type document.capturedAt
        score := min 100 (55 + copies.length * 8)
        confidence := 90
        documentIds := copies.map (·.id) }

/-! ## Numbering -/

/-- `re.fullmatch(r"(.*?)(\d+)", value.strip())`: all the digits at the end,
and what stands before them on one line. -/
def numericSuffix (value : Option String) : Option (String × Nat) :=
  match value with
  | none => none
  | some value =>
    let text := (rt.strip value).toList
    let digits := (text.reverse.takeWhile rt.isDecimal).reverse
    let leading := text.take (text.length - digits.length)
    if value = "" || digits.isEmpty || leading.contains '\n' then none
    else some (String.ofList leading, digits.foldl (fun n char => 10 * n + rt.digitValue char) 0)

/-- The documents of a list whose id was not seen before. -/
def unseen (seen : List UUID) : List NormalizedDocument → List NormalizedDocument
  | [] => []
  | document :: documents =>
    if seen.contains document.id then unseen seen documents
    else document :: unseen (document.id :: seen) documents

/-- `(*comparison_documents, *transaction.documents)`, each document once. -/
def candidates (context : FraudContext) : List NormalizedDocument :=
  unseen [] (context.comparisonDocuments ++ context.transaction.documents)

/-- A document and its number in a series. -/
structure Numbered where
  series : Series
  number : Nat
  document : NormalizedDocument
deriving DecidableEq

def numbered (document : NormalizedDocument) : Option Numbered :=
  (numericSuffix rt document.externalDocumentCode).map fun parsed =>
    { series :=
        { sourceDeviceId := document.sourceDeviceId
          documentType := document.type
          businessDate := document.documentTime.date
          leading := parsed.1 }
      number := parsed.2
      document }

/-- `sorted(values, key=lambda item: item[0])` of one series. -/
def ofSeries (values : List Numbered) (series : Series) : List Numbered :=
  (values.filter fun item => item.series == series).insertionSort fun a b => a.number ≤ b.number

/-- The neighbours in a series with a number missing between them. -/
def sequenceGaps (documents : List NormalizedDocument) : List (Numbered × Numbered) :=
  let values := documents.filterMap (numbered rt)
  (firstSeen (values.map Numbered.series)).flatMap fun series =>
    ((ofSeries values series).zip (ofSeries values series).tail).filter fun pair =>
      1 < pair.2.number - pair.1.number

def gapEvidence (gap : Numbered × Numbered) : Evidence :=
  .sequenceGap gap.1.series gap.1.number gap.2.number (gap.2.number - gap.1.number - 1)

def gapDocumentIds (gap : Numbered × Numbered) : List UUID :=
  [gap.1.document.id, gap.2.document.id]

/-- `min(involved, key=str) in transaction_ids` -/
def anchored (involved own : List UUID) : Bool := involved.min?.any own.contains

def sequenceGap (context : FraudContext) (_ : RuleDefinition) : Option FindingData :=
  let own := context.transaction.ids
  let gaps := (sequenceGaps rt (candidates context)).filter fun gap =>
    (gapDocumentIds gap).any own.contains
  let involved := gaps.flatMap gapDocumentIds
  if gaps.isEmpty || !anchored involved own then none
  else
    some
      { description := "Discontinuità nella sequenza dei documenti"
        explanation := "Rilevate " ++ toString gaps.length ++
          " discontinuità numeriche nella stessa serie."
        evidence := gaps.map gapEvidence
        score := min 100 (65 + gaps.length * 10)
        confidence := 80
        documentIds := involved.dedup.insertionSort (· ≤ ·) }

/-! ## Duplicates -/

structure DuplicateKey where
  sourceDeviceId : String
  documentType : DocumentType
  businessDate : Int
  identity : String
deriving DecidableEq

def duplicateKey (document : NormalizedDocument) : DuplicateKey where
  sourceDeviceId := document.sourceDeviceId
  documentType := document.type
  businessDate := document.documentTime.date
  identity :=
    match document.externalDocumentCode.filter fun code => code != "" with
    | some code => "CODE:" ++ code
    | none => "HASH:" ++ document.sourcePayloadSha256

/-- Copies, responses and management copies are expected to repeat a number. -/
def outputArtifact (document : NormalizedDocument) : Bool :=
  document.type == .reprint || document.type == .conformingCopy ||
    document.type == .deviceResponse ||
    (document.type == .managementDocument && document.commercialReferenceCode.isSome)

/-- Two documents of two jobs with one key, of a kind that may not repeat. -/
def duplicated (documents : List NormalizedDocument) : Bool :=
  1 < (documents.map (·.sourceJobId)).dedup.length && 1 < documents.length &&
    !documents.head?.any outputArtifact

def duplicateGroups (documents : List NormalizedDocument) : List (List NormalizedDocument) :=
  ((firstSeen (documents.map duplicateKey)).map fun key =>
    documents.filter fun document => duplicateKey document == key).filter duplicated

def duplicateEvidence (documents : List NormalizedDocument) : Evidence :=
  .duplicateDocument (documents.map (·.id)) (documents.map (·.sourceJobId))
    (documents.head?.bind (·.externalDocumentCode))
    ((documents.head?.map (·.sourcePayloadSha256)).getD "")

def duplicateDocument (context : FraudContext) (_ : RuleDefinition) : Option FindingData :=
  let own := context.transaction.ids
  let groups := (duplicateGroups (candidates context)).filter fun documents =>
    (documents.map (·.id)).any own.contains
  let involved := groups.flatMap fun documents => documents.map (·.id)
  if groups.isEmpty || !anchored involved own then none
  else
    some
      { description := "Identificativo o contenuto documento duplicato"
        explanation := "Rilevati " ++ toString groups.length ++
          " gruppi duplicati su job distinti."
        evidence := groups.map duplicateEvidence
        score := min 100 (70 + groups.length * 10)
        confidence := 90
        documentIds := involved }

/-! ## Late changes, lines and payments -/

/-- Printed outputs are not actions on the order. -/
def nonAction (document : NormalizedDocument) : Bool :=
  document.type == .commercialDocument || document.type == .managementDocument ||
    document.type == .conformingCopy || document.type == .reprint ||
    document.type == .deviceResponse

def modificationType : OrderEventType → Bool
  | .itemAdded | .itemRemoved | .quantityChanged | .priceChanged | .discountApplied
  | .discountRemoved => true
  | _ => false

def lateModification (context : FraudContext) (rule : RuleDefinition) : Option FindingData :=
  let documents := context.transaction.documents
  let nonActionIds := (documents.filter nonAction).map (·.id)
  let window := (rule.parameter "window_minutes" ⟨50000, "5"⟩).whole
  match earliestTime ((documents.filter validFiscalDocument).map NormalizedDocument.documentTime) with
  | none => none
  | some fiscalTime =>
    let events := context.orderEvents.filter fun event =>
      modificationType event.type && fiscalTime.micros < event.occurredAt.micros &&
        event.occurredAt.micros ≤ fiscalTime.micros + minutes window &&
        !event.sourceDocumentId.any nonActionIds.contains
    if events.isEmpty then none
    else
      some
        { description := "Modifica tardiva dell'ordine"
          explanation := "Rilevate " ++ toString events.length ++
            " modifiche dopo la chiusura ed entro " ++ toString window ++ " minuti."
          evidence := events.map fun event =>
            .lateOrderEvent event.id event.type event.occurredAt fiscalTime event.details
          score := min 100 (65 + events.length * 8)
          confidence := 90 }

/-- `technical_non_sale_line` -/
def technicalNonSaleLine (description : String) : Bool :=
  let upper := (rt.upper description).toList.map fun char => if rt.isAlnum char then char else ' '
  let normalized := " ".intercalate (rt.words (String.ofList upper))
  ["IVA", "TOT", "TOTALE", "TOTALE COMPLESSIVO", "RESTO", "CONTANTI", "PAGAMENTO CONTANTE",
    "IMPORTO PAGATO", "IMPONIBILE", "ALIQUOTA IVA"].contains normalized ||
  ["IVA ", "TOT ", "TOTALE ", "RESTO ", "CONTANTI ", "PAGAMENTO ", "IMPORTO PAGATO ",
    "IMPONIBILE ", "ALIQUOTA IVA "].any fun leading => leading.isPrefixOf normalized

/-- The unit price and the total of a line, where they are known. -/
def lineValues (line : DocumentLine) : List Money :=
  (effectiveUnitPrice line).toList ++ line.lineTotal.toList

/-- A line without a sale value: not positive, and not only zero on a
technical label. -/
def nonPositiveLine (line : DocumentLine) : Bool :=
  (lineValues line).any (fun value => value ≤ 0) &&
    !((lineValues line).all (fun value => 0 ≤ value) &&
      technicalNonSaleLine rt (line.description.getD ""))

def pricedTypes : DocumentType → Bool
  | .order | .preBill | .managementDocument | .commercialDocument => true
  | _ => false

def nonPositiveItem (context : FraudContext) (_ : RuleDefinition) : Option FindingData :=
  let flagged := (context.transaction.documents.filter fun document =>
    pricedTypes document.type).flatMap fun document =>
      (document.lines.filter (nonPositiveLine rt)).map fun line => (document, line)
  if flagged.isEmpty then none
  else
    some
      { description := "Articolo con valore nullo o negativo"
        explanation := "Rilevate " ++ toString flagged.length ++
          " righe non positive fuori da annulli, rimborsi e proiezioni tecniche riconosciute."
        evidence := flagged.map fun item =>
          .nonPositiveItem item.1.id item.2.sequence item.2.description
            (effectiveUnitPrice item.2) item.2.lineTotal
        score := min 100 (65 + flagged.length * 8)
        confidence := 90
        documentIds := ((flagged.map fun item => item.1.id).dedup).insertionSort (· ≤ ·) }

/-- A zero line without a description: `technical_non_sale_line(None)` raises. -/
def unlabelledLine (line : DocumentLine) : Bool :=
  line.description.isNone && (lineValues line).any (fun value => value ≤ 0) &&
    (lineValues line).all fun value => 0 ≤ value

/-- `_decimal(value)` on a metadata value. -/
def metadataDecimal : MetadataValue → Option Money
  | .null | .bool _ => none
  | .int value => some (value * 10000)
  | .str text | .other _ text => rt.decimal text

/-- The totals the lines of a document can add up to. -/
def lineTotalCandidates (document : NormalizedDocument) (lineSum : Money) : Option (List Money) :=
  let single := (["adjustment_total", "surcharge_total", "rounding_adjustment"].filterMap fun key =>
    document.rawMetadata.lookup key).mapM (metadataDecimal rt)
  let listed :=
    match document.rawMetadata.lookup "adjustments" with
    | none => some []
    | some (.other _ text) => rt.amounts text
    | some _ => none
  match single, listed with
  | some single, some listed =>
    let adjustments := single ++ listed
    let discounted := document.discountTotal.toList.map fun discount => lineSum - discount
    let adjusted := if adjustments.isEmpty then []
      else (lineSum :: discounted).map fun total => total + adjustments.sum
    some (((lineSum :: discounted ++ adjusted).dedup).insertionSort (· ≤ ·))
  | _, _ => none

def untotalledTypes : DocumentType → Bool
  | .orderChange | .kitchenOrder | .cancellation | .refund | .conformingCopy | .reprint
  | .deviceResponse => true
  | _ => false

/-- The record of a document whose lines do not add up to its total. -/
def lineMismatch (tolerance : Int) (document : NormalizedDocument) : Option Evidence :=
  match document.total with
  | none => none
  | some total =>
    if untotalledTypes document.type || !document.complete || document.lines.isEmpty ||
        document.lines.any (fun line => line.lineTotal.isNone) then none
    else
      let lineSum := (document.lines.map fun line => line.lineTotal.getD 0).sum
      match lineTotalCandidates rt document lineSum with
      | none => none
      | some expectedTotals =>
        let differences := expectedTotals.map fun expected => ((total - expected).natAbs : Int)
        let difference := differences.min?.getD 0
        if tolerance < difference then
          some (.totalLineMismatch document.id total lineSum document.discountTotal expectedTotals
            difference)
        else none

def totalLineMismatch (context : FraudContext) (rule : RuleDefinition) : Option FindingData :=
  let tolerance := rule.parameter "tolerance" ⟨100, "0.01"⟩
  let mismatches := context.transaction.documents.filterMap fun document =>
    (lineMismatch rt tolerance.value document).map fun evidence => (document.id, evidence)
  if mismatches.isEmpty then none
  else
    some
      { description := "Totale incompatibile con la somma delle righe"
        explanation := "Rilevati " ++ toString mismatches.length ++
          " documenti oltre la tolleranza " ++ tolerance.text ++ " EUR."
        evidence := mismatches.map Prod.snd
        score := min 100 (65 + mismatches.length * 10)
        confidence := 92
        documentIds := mismatches.map Prod.fst }

def paymentTotalMismatch (context : FraudContext) (rule : RuleDefinition) : Option FindingData :=
  let tx := context.transaction
  let payments := tx.documents.flatMap (·.payments)
  let difference : Int := (tx.fiscalTotal - tx.paymentTotal).natAbs
  if payments.isEmpty || !tx.documents.any (fun document => document.type == .commercialDocument) ||
      difference ≤ (rule.parameter "tolerance" ⟨100, "0.01"⟩).value then none
  else
    some
      { description := "Pagamenti incompatibili con il totale fiscale"
        explanation := "Totale fiscale " ++ decimalText tx.fiscalTotal ++ " EUR, pagamenti " ++
          decimalText tx.paymentTotal ++ " EUR, differenza " ++ decimalText difference ++ " EUR."
        evidence := [.paymentTotalMismatch tx.fiscalTotal tx.paymentTotal difference payments.length]
        score := min 100 (70 + difference.tdiv 10000)
        confidence := 95 }

/-! ## Operators -/

def operatorPattern (context : FraudContext) (rule : RuleDefinition) : Option FindingData :=
  match context.operatorStats with
  | none => none
  | some stats =>
    let total := stats.transactionCount
    let anomalous := stats.anomalousTransactionCount
    let minimum := (rule.parameter "minimum_transactions" ⟨200000, "20"⟩).whole
    let threshold := (rule.parameter "minimum_anomaly_rate" ⟨3000, "0.30"⟩).value
    if stats.operatorCode = "" || total = 0 || total < minimum ||
        anomalous * 10000 < threshold * total then none
    else
      some
        { description := "Concentrazione anomala su un operatore identificato"
          explanation := "Operatore " ++ stats.operatorCode ++ ": " ++ toString anomalous ++ "/" ++
            toString total ++ " transazioni anomale (" ++
            hundredths (roundHalfEven (anomalous * 10000) total).toNat ++ "%)."
          evidence := [.operatorPattern stats.operatorCode total anomalous
            stats.voidOrCancellationCount]
          score := min 100 (50 + anomalous * 100 / total)
          confidence := 80 }

/-- `_handlers` -/
def handler : RuleCode → FraudContext → RuleDefinition → Option FindingData
  | .modificaPostPreconto => postPrebillChange
  | .prebillFiscalAmountDrop => prebillAmountDrop
  | .itemRemovedAfterPrebill => itemRemoved
  | .priceReducedAfterPrebill => priceReduced
  | .extremePriceChange => extremePriceChange
  | .sameReferenceDifferentAmount => sameReferenceDifferentAmount rt
  | .orderWithoutFiscalClose => orderWithoutFiscalClose
  | .fiscalWithoutSourceOrder => fiscalWithoutSourceOrder
  | .excessiveVoidOrCancellation => excessiveVoid
  | .reprintOrCopyAnomaly => reprintAnomaly
  | .documentSequenceGap => sequenceGap rt
  | .duplicateDocument => duplicateDocument
  | .lateOrderModification => lateModification
  | .negativeOrZeroValueItem => nonPositiveItem rt
  | .totalLineMismatch => totalLineMismatch rt
  | .paymentTotalMismatch => paymentTotalMismatch
  | .unusualOperatorPattern => operatorPattern

end

end RetailPrintGuard.Fraud.Rules

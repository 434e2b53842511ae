import RetailPrintGuard.Common.Amounts
import RetailPrintGuard.Correlation.Lines
import RetailPrintGuard.Library.Grouping

/-! # Line changes of an order

An order change leaves quantities and totals with other places than the stored
four, so both are decimals here; prices and discounts stay as stored. -/
namespace RetailPrintGuard.Correlation.OrderLines
open RetailPrintGuard.Common.Python RetailPrintGuard.Common.Domain
open RetailPrintGuard.Common.Amounts RetailPrintGuard.Correlation.Lines
open RetailPrintGuard.Library.DecimalFloat RetailPrintGuard.Library.Grouping

/-- A value of a `Money` column. -/
def stored (value : Money) : Decimal := ⟨value < 0, value.natAbs, -4⟩

/-- `Decimal("1")` -/
def unit : Decimal := { coefficient := 1 }

/-- A line, with quantity and total apart from its other columns. -/
structure OrderLine where
  columns : DocumentLine
  quantity : Option Decimal
  lineTotal : Option Decimal
deriving DecidableEq

def OrderLine.ofStored (line : DocumentLine) : OrderLine where
  columns := { line with quantity := none, lineTotal := none }
  quantity := line.quantity.map stored
  lineTotal := line.lineTotal.map stored

def storedLines (document : NormalizedDocument) : List OrderLine :=
  document.lines.map OrderLine.ofStored

/-- `quantity or default` -/
def quantityOr (default : Decimal) (quantity : Option Decimal) : Decimal :=
  (quantity.filter fun value => value.coefficient != 0).getD default

/-! ## Order changes -/

section
variable (rt : Runtime)

/-- A line of the state before: quantities of one key add up. -/
def addBefore (state : List (String × OrderLine)) (item : OrderLine × Nat) :
    List (String × OrderLine) :=
  addItem (fun item : OrderLine × Nat => lineKey rt item.1.columns item.2) Prod.fst
    (fun current item =>
      { current with
        quantity := some (add precision (quantityOr unit current.quantity)
          (quantityOr unit item.1.quantity)) })
    state item

/-- The line a change leaves. -/
def changedLine (current delta : OrderLine) (residual : Decimal) : OrderLine where
  columns :=
    { current.columns with
      state := some "CHANGED"
      rawText :=
        if Runtime.truthy delta.columns.rawText then delta.columns.rawText
        else current.columns.rawText
      source := delta.columns.source.or current.columns.source }
  quantity := some residual
  lineTotal :=
    match effectiveUnitPrice current.columns with
    | some price => some (mul precision (stored price) residual)
    | none => current.lineTotal

def applyDelta (state : List (String × OrderLine)) (item : OrderLine × Nat) :
    List (String × OrderLine) :=
  let (delta, ordinal) := item
  let key := lineKey rt delta.columns ordinal
  let deltaQuantity := quantityOr (stored 0) delta.quantity
  let explicitlyRemoved := delta.columns.removed || delta.columns.cancelled
  match state.lookup key with
  | none =>
    -- a negative delta without a line stays in its document
    if explicitlyRemoved || nonPositive deltaQuantity then state else state ++ [(key, delta)]
  | some current =>
    let residual := add precision (quantityOr unit current.quantity) deltaQuantity
    if explicitlyRemoved || nonPositive residual then state.filter fun entry => entry.1 ≠ key
    else
      state.map fun entry =>
        if entry.1 = key then (key, changedLine current delta residual) else entry

def applyOrderChangeLines (before deltas : List OrderLine) : List OrderLine :=
  (deltas.zipIdx.foldl (applyDelta rt) (before.zipIdx.foldl (addBefore rt) [])).map Prod.snd

/-! ## The diff -/

structure OrderAggregate where
  description : Option String
  quantity : Decimal
  unitPrice : Option Money
  discount : Option Money
  total : Option Decimal
  source : Option SourceSpan
deriving DecidableEq

def OrderAggregate.ofLine (item : OrderLine × Nat) : OrderAggregate where
  description := item.1.columns.description
  quantity := item.1.quantity.getD unit
  unitPrice := effectiveUnitPrice item.1.columns
  discount := item.1.columns.discount
  total := item.1.lineTotal
  source := item.1.columns.source

def OrderAggregate.add (existing : OrderAggregate) (item : OrderLine × Nat) : OrderAggregate :=
  { existing with
    quantity := Library.DecimalFloat.add precision existing.quantity (item.1.quantity.getD unit)
    total :=
      match existing.total, item.1.lineTotal with
      | some total, some lineTotal => some (Library.DecimalFloat.add precision total lineTotal)
      | none, some lineTotal => some lineTotal
      | total, none => total
    unitPrice :=
      if existing.unitPrice ≠ effectiveUnitPrice item.1.columns then
        effectiveUnitPrice item.1.columns
      else existing.unitPrice }

def aggregateOrderLines (lines : List OrderLine) : List (String × OrderAggregate) :=
  groupBy (fun item : OrderLine × Nat => lineKey rt item.1.columns item.2) .ofLine .add
    lines.zipIdx

structure OrderLineChange where
  itemKey : String
  description : Option String
  changeType : LineChangeType
  beforeQuantity : Option Decimal
  afterQuantity : Option Decimal
  beforeUnitPrice : Option Money
  afterUnitPrice : Option Money
  beforeDiscount : Option Money
  afterDiscount : Option Money
  beforeTotal : Option Decimal
  afterTotal : Option Decimal
  beforeSource : Option SourceSpan
  afterSource : Option SourceSpan
deriving DecidableEq

def orderChangeType : Option OrderAggregate → Option OrderAggregate → LineChangeType
  | none, _ => .added
  | some _, none => .removed
  | some old, some new =>
    if !equals old.quantity new.quantity then .quantityChanged
    else if old.unitPrice ≠ new.unitPrice then .priceChanged
    else if old.discount ≠ new.discount then .discountChanged
    else .unchanged

/-- `compare_document_lines` -/
def compareOrderLines (before after : List OrderLine) : List OrderLineChange :=
  let left := aggregateOrderLines rt before
  let right := aggregateOrderLines rt after
  let keys := ((left ++ right).map Prod.fst).dedup.insertionSort (· ≤ ·)
  keys.map fun key =>
    let old := left.lookup key
    let new := right.lookup key
    { itemKey := key
      description := (new.or old).bind OrderAggregate.description
      changeType := orderChangeType old new
      beforeQuantity := old.map OrderAggregate.quantity
      afterQuantity := new.map OrderAggregate.quantity
      beforeUnitPrice := old.bind OrderAggregate.unitPrice
      afterUnitPrice := new.bind OrderAggregate.unitPrice
      beforeDiscount := old.bind OrderAggregate.discount
      afterDiscount := new.bind OrderAggregate.discount
      beforeTotal := old.bind OrderAggregate.total
      afterTotal := new.bind OrderAggregate.total
      beforeSource := old.bind OrderAggregate.source
      afterSource := new.bind OrderAggregate.source }

end

/-- One of two pizzas is taken back: the residual is priced again. -/
example :
    applyOrderChangeLines asciiRuntime
      [.ofStored { sequence := 0, description := some "pizza", quantity := some 20000,
                   unitPrice := some 80000, lineTotal := some 160000 }]
      [.ofStored { sequence := 0, description := some "Pizza", quantity := some (-10000) }] =
    [{ columns := { sequence := 0, description := some "pizza", unitPrice := some 80000,
                    state := some "CHANGED" }
       quantity := some ⟨false, 10000, -4⟩
       lineTotal := some ⟨false, 800000000, -8⟩ }] := by
  decide +kernel

end RetailPrintGuard.Correlation.OrderLines

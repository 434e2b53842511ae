import Mathlib.Data.String.Basic
import RetailPrintGuard.Common.Domain
import RetailPrintGuard.Library.ListOrder

/-! # Line aggregation and the line diff

`_aggregate_lines` is a dictionary in insertion order, kept as its items. -/
namespace RetailPrintGuard.Correlation.Lines
open RetailPrintGuard.Common.Python RetailPrintGuard.Common.Domain

def lineKey (rt : Runtime) (line : DocumentLine) (ordinal : Nat) : String :=
  match rt.normalise line.itemCode with
  | some code => "CODE:" ++ code
  | none =>
    match rt.normalise line.description with
    | some description => "DESC:" ++ description
    | none => "POSITION:" ++ toString ordinal

def effectiveUnitPrice (line : DocumentLine) : Option Money :=
  line.modifiedUnitPrice.or line.unitPrice

structure LineAggregate where
  description : Option String
  quantity : Money
  unitPrice : Option Money
  discount : Option Money
  total : Option Money
  source : Option SourceSpan
deriving DecidableEq

/-- `Decimal("1")` as a quantity. -/
def one : Money := 10000

/-- A later line of the same key: quantities and totals add up, the last unit
price wins, description, discount and source stay those of the first line. -/
def LineAggregate.add (existing : LineAggregate) (line : DocumentLine) : LineAggregate :=
  { existing with
    quantity := existing.quantity + line.quantity.getD one
    total :=
      match existing.total, line.lineTotal with
      | some total, some lineTotal => some (total + lineTotal)
      | none, some lineTotal => some lineTotal
      | total, none => total
    unitPrice :=
      if existing.unitPrice ≠ effectiveUnitPrice line then effectiveUnitPrice line
      else existing.unitPrice }

def LineAggregate.ofLine (line : DocumentLine) : LineAggregate where
  description := line.description
  quantity := line.quantity.getD one
  unitPrice := effectiveUnitPrice line
  discount := line.discount
  total := line.lineTotal
  source := line.source

def addLine (rt : Runtime) (aggregated : List (String × LineAggregate))
    (item : DocumentLine × Nat) : List (String × LineAggregate) :=
  let key := lineKey rt item.1 item.2
  match aggregated.lookup key with
  | none => aggregated ++ [(key, .ofLine item.1)]
  | some existing =>
    aggregated.map fun entry => if entry.1 = key then (key, existing.add item.1) else entry

def aggregateLines (rt : Runtime) (lines : List DocumentLine) : List (String × LineAggregate) :=
  lines.zipIdx.foldl (addLine rt) []

/-- `set(_aggregate_lines(lines))` -/
def lineKeys (rt : Runtime) (lines : List DocumentLine) : List String :=
  (aggregateLines rt lines).map Prod.fst

/-- The keys two line collections have in common. -/
def sharedItems (rt : Runtime) (left right : List DocumentLine) : List String :=
  (lineKeys rt left).filter fun key => (lineKeys rt right).contains key

inductive LineChangeType where
  | added | removed | quantityChanged | priceChanged | discountChanged | unchanged
deriving DecidableEq

structure LineChange where
  itemKey : String
  description : Option String
  changeType : LineChangeType
  beforeQuantity : Option Money
  afterQuantity : Option Money
  beforeUnitPrice : Option Money
  afterUnitPrice : Option Money
  beforeDiscount : Option Money
  afterDiscount : Option Money
  beforeTotal : Option Money
  afterTotal : Option Money
  beforeSource : Option SourceSpan
  afterSource : Option SourceSpan
deriving DecidableEq

def changeType : Option LineAggregate → Option LineAggregate → LineChangeType
  | none, _ => .added
  | some _, none => .removed
  | some old, some new =>
    if old.quantity ≠ new.quantity then .quantityChanged
    else if old.unitPrice ≠ new.unitPrice then .priceChanged
    else if old.discount ≠ new.discount then .discountChanged
    else .unchanged

def compareDocumentLines (rt : Runtime) (before after : List DocumentLine) : List LineChange :=
  let left := aggregateLines rt before
  let right := aggregateLines rt after
  let keys := ((left ++ right).map Prod.fst).dedup.insertionSort (· ≤ ·)
  keys.map fun key =>
    let old := left.lookup key
    let new := right.lookup key
    { itemKey := key
      description := (new.or old).bind LineAggregate.description
      changeType := changeType old new
      beforeQuantity := old.map LineAggregate.quantity
      afterQuantity := new.map LineAggregate.quantity
      beforeUnitPrice := old.bind LineAggregate.unitPrice
      afterUnitPrice := new.bind LineAggregate.unitPrice
      beforeDiscount := old.bind LineAggregate.discount
      afterDiscount := new.bind LineAggregate.discount
      beforeTotal := old.bind LineAggregate.total
      afterTotal := new.bind LineAggregate.total
      beforeSource := old.bind LineAggregate.source
      afterSource := new.bind LineAggregate.source }

/-- `_line_similarity`: common keys over all keys, as numerator and
denominator. -/
def lineSimilarity (rt : Runtime) (left right : NormalizedDocument) : Option (Nat × Nat) :=
  let leftKeys := lineKeys rt left.lines
  let rightKeys := lineKeys rt right.lines
  if leftKeys.isEmpty || rightKeys.isEmpty then none
  else some ((sharedItems rt left.lines right.lines).dedup.length, (leftKeys ++ rightKeys).dedup.length)

theorem lineSimilarity_le {rt : Runtime} {left right : NormalizedDocument} {common all : Nat}
    (h : lineSimilarity rt left right = some (common, all)) : common ≤ all := by
  simp only [lineSimilarity] at h
  split at h
  · cases h
  · obtain ⟨rfl, rfl⟩ := Prod.mk.inj (Option.some.inj h)
    refine List.Subperm.length_le (List.Nodup.subperm (List.nodup_dedup _) ?_)
    intro key hkey
    have hl := (List.mem_filter.mp (List.mem_dedup.mp hkey)).1
    exact List.mem_dedup.mpr (List.mem_append_left _ hl)

end RetailPrintGuard.Correlation.Lines

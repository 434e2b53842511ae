import RetailPrintGuard.Correlation.Lines
import RetailPrintGuard.Library.Grouping

/-! # The line diff of the transaction view

The read model aggregates stored lines by a key of its own and reports the
differences of two collections, next to the diff of the correlation engine. -/
namespace RetailPrintGuard.Db.LineDiff
open RetailPrintGuard.Common.Python RetailPrintGuard.Common.Domain
open RetailPrintGuard.Correlation.Lines RetailPrintGuard.Library.Grouping
open RetailPrintGuard.Library.ListOrder

section
variable (rt : Runtime)

/-- `" ".join(value.upper().split())` -/
def upperWords (value : String) : String := " ".intercalate (rt.words (rt.upper value))

/-- `_line_key` of `db/repository.py`: accents and blank texts count, and a line
without texts is known by its sequence. -/
def storedLineKey (line : DocumentLine) : String :=
  match line.itemCode, line.description with
  | some code, description =>
    if code ≠ "" then "CODE:" ++ upperWords rt code else ofDescription description
  | none, description => ofDescription description
where
  ofDescription : Option String → String
    | some description =>
      if description ≠ "" then "DESC:" ++ upperWords rt description
      else "SEQUENCE:" ++ toString line.sequence
    | none => "SEQUENCE:" ++ toString line.sequence

structure StoredAggregate where
  itemKey : String
  description : Option String
  quantity : Money
  unitPrice : Option Money
  discount : Option Money
  lineTotal : Option Money
deriving DecidableEq

def StoredAggregate.ofLine (line : DocumentLine) : StoredAggregate where
  itemKey := storedLineKey rt line
  description := line.description
  quantity := line.quantity.getD one
  unitPrice := effectiveUnitPrice line
  discount := line.discount
  lineTotal := line.lineTotal

/-- A later line of the same key: the unit price stays that of the first. -/
def StoredAggregate.add (existing : StoredAggregate) (line : DocumentLine) : StoredAggregate :=
  { existing with
    quantity := existing.quantity + line.quantity.getD one
    lineTotal :=
      match existing.lineTotal, line.lineTotal with
      | some total, some lineTotal => some (total + lineTotal)
      | total, _ => total }

def aggregateStoredLines (lines : List DocumentLine) : List (String × StoredAggregate) :=
  groupBy (storedLineKey rt) (.ofLine rt) .add lines

structure StoredChange (α : Type) where
  itemKey : String
  description : Option String
  before : α
  after : α
deriving DecidableEq

structure StoredLineDiff where
  added : List StoredAggregate
  removed : List StoredAggregate
  quantityChanged : List (StoredChange Money)
  priceChanged : List (StoredChange (Option Money))
  discountChanged : List (StoredChange (Option Money))
deriving DecidableEq

/-- `new["description"] or old["description"]` -/
def commonDescription (old new : StoredAggregate) : Option String :=
  if Runtime.truthy new.description then new.description else old.description

/-- The entries of a field that differ. -/
def changesOf {α : Type} [DecidableEq α] (field : StoredAggregate → α)
    (common : List (String × StoredAggregate × StoredAggregate)) : List (StoredChange α) :=
  common.filterMap fun entry =>
    let (key, old, new) := entry
    if field old ≠ field new then
      some { itemKey := key, description := commonDescription old new,
             before := field old, after := field new }
    else none

variable (before after : List DocumentLine)

/-- `sorted(set(left) | set(right))` -/
def storedKeys : List String :=
  let left := aggregateStoredLines rt before
  let right := aggregateStoredLines rt after
  ((left ++ right).map Prod.fst).dedup.insertionSort (· ≤ ·)

/-- The keys of both collections, with their entries. -/
def storedCommon : List (String × StoredAggregate × StoredAggregate) :=
  (storedKeys rt before after).filterMap fun key =>
    match (aggregateStoredLines rt before).lookup key, (aggregateStoredLines rt after).lookup key with
    | some old, some new => some (key, old, new)
    | _, _ => none

def storedLineDiff : StoredLineDiff where
  added := (storedKeys rt before after).filterMap fun key =>
    if ((aggregateStoredLines rt before).lookup key).isNone then
      (aggregateStoredLines rt after).lookup key
    else none
  removed := (storedKeys rt before after).filterMap fun key =>
    if ((aggregateStoredLines rt after).lookup key).isNone then
      (aggregateStoredLines rt before).lookup key
    else none
  quantityChanged := changesOf StoredAggregate.quantity (storedCommon rt before after)
  priceChanged := changesOf StoredAggregate.unitPrice (storedCommon rt before after)
  discountChanged := changesOf StoredAggregate.discount (storedCommon rt before after)

/-! ## Agreement -/

/-- The keys the engine reports under a kind of change. -/
def engineKeys (changeType : LineChangeType) : List String :=
  ((compareDocumentLines rt before after).filter fun change =>
    change.changeType == changeType).map LineChange.itemKey

/-- A common key with the quantities and unit prices on both sides. -/
structure CommonItem where
  itemKey : String
  beforeQuantity : Money
  afterQuantity : Money
  beforeUnitPrice : Option Money
  afterUnitPrice : Option Money
deriving DecidableEq

def engineItems : List CommonItem :=
  (compareDocumentLines rt before after).filterMap fun change =>
    match change.beforeQuantity, change.afterQuantity with
    | some beforeQuantity, some afterQuantity =>
      some { itemKey := change.itemKey, beforeQuantity, afterQuantity,
             beforeUnitPrice := change.beforeUnitPrice, afterUnitPrice := change.afterUnitPrice }
    | _, _ => none

def storedItems : List CommonItem :=
  (storedCommon rt before after).map fun entry =>
    { itemKey := entry.1
      beforeQuantity := entry.2.1.quantity
      afterQuantity := entry.2.2.quantity
      beforeUnitPrice := entry.2.1.unitPrice
      afterUnitPrice := entry.2.2.unitPrice }

/-- Both diffs report the same keys and, for the common ones, the same values. -/
structure DiffsAgree : Prop where
  added : ∀ key, key ∈ engineKeys rt before after .added ↔
    key ∈ (storedLineDiff rt before after).added.map StoredAggregate.itemKey
  removed : ∀ key, key ∈ engineKeys rt before after .removed ↔
    key ∈ (storedLineDiff rt before after).removed.map StoredAggregate.itemKey
  common : ∀ item, item ∈ engineItems rt before after ↔ item ∈ storedItems rt before after

/-! ## When they agree -/

/-- The lines of an engine key, in order. -/
def engineLines (lines : List DocumentLine) (key : String) : List DocumentLine :=
  (lines.zipIdx.filter fun item => lineKey rt item.1 item.2 = key).map Prod.fst

/-- The lines of a key of the read model, in order. -/
def storedLines (lines : List DocumentLine) (key : String) : List DocumentLine :=
  lines.filter fun line => storedLineKey rt line = key

def quantitySum (lines : List DocumentLine) : Money :=
  (lines.map fun line => line.quantity.getD one).sum

/-- The same keys name lines of the collection. -/
def SameKeys (lines : List DocumentLine) : Prop :=
  ∀ key, engineLines rt lines key = [] ↔ storedLines rt lines key = []

/-- The lines of the key add up to the same quantity, and the last line of the
engine's has the unit price of the first one of the read model's. -/
def SameValues (lines : List DocumentLine) (key : String) : Prop :=
  quantitySum (engineLines rt lines key) = quantitySum (storedLines rt lines key) ∧
    ((engineLines rt lines key).map effectiveUnitPrice).getLast? =
      ((storedLines rt lines key).map effectiveUnitPrice).head?

end

variable {rt : Runtime} {before after lines : List DocumentLine} {key : String}

theorem aggregateLines_eq :
    aggregateLines rt lines =
      groupBy (fun item : DocumentLine × Nat => lineKey rt item.1 item.2)
        (fun item => LineAggregate.ofLine item.1) (fun existing item => existing.add item.1)
        lines.zipIdx := by
  unfold aggregateLines groupBy
  congr 1
  funext groups item
  simp only [addLine, addItem]
  cases groups.lookup (lineKey rt item.1 item.2) with
  | none => rfl
  | some existing => rfl

/-- The fold of the engine over the lines of a key. -/
theorem lookup_aggregateLines :
    (aggregateLines rt lines).lookup key =
      entryOf LineAggregate.ofLine LineAggregate.add (engineLines rt lines key) := by
  rw [aggregateLines_eq, lookup_groupBy, engineLines]
  cases lines.zipIdx.filter fun item => lineKey rt item.1 item.2 = key with
  | nil => rfl
  | cons item items => simp [entryOf, List.foldl_map]

theorem lookup_aggregateStoredLines :
    (aggregateStoredLines rt lines).lookup key =
      entryOf (.ofLine rt) StoredAggregate.add (storedLines rt lines key) :=
  lookup_groupBy lines key

theorem quantitySum_cons (line : DocumentLine) (rest : List DocumentLine) :
    quantitySum (line :: rest) = line.quantity.getD one + quantitySum rest := by
  simp [quantitySum]

theorem unitPrice_add (existing : LineAggregate) (line : DocumentLine) :
    (existing.add line).unitPrice = effectiveUnitPrice line := by
  unfold LineAggregate.add
  by_cases h : existing.unitPrice = effectiveUnitPrice line
  · simp [h]
  · simp [h]

/-- What the engine keeps of the lines of a key. -/
theorem entryOf_engine {line : DocumentLine} {rest : List DocumentLine} :
    ∃ entry, entryOf LineAggregate.ofLine LineAggregate.add (line :: rest) = some entry ∧
      entry.quantity = quantitySum (line :: rest) ∧
      some entry.unitPrice = ((line :: rest).map effectiveUnitPrice).getLast? := by
  refine ⟨_, rfl, ?_, ?_⟩
  · rw [quantitySum_cons]
    exact foldl_add_eq_sum LineAggregate.add LineAggregate.quantity (fun _ _ => rfl) rest _
  · rw [foldl_add_eq_last LineAggregate.add LineAggregate.unitPrice unitPrice_add, List.map_cons, List.getLast?_cons]
    rfl

/-- What the read model keeps of the lines of a key. -/
theorem entryOf_stored {line : DocumentLine} {rest : List DocumentLine} :
    ∃ entry, entryOf (.ofLine rt) StoredAggregate.add (line :: rest) = some entry ∧
      entry.itemKey = storedLineKey rt line ∧ entry.quantity = quantitySum (line :: rest) ∧
      some entry.unitPrice = ((line :: rest).map effectiveUnitPrice).head? := by
  refine ⟨_, rfl, ?_, ?_, ?_⟩
  · exact foldl_add_eq_first StoredAggregate.add StoredAggregate.itemKey (fun _ _ => rfl) rest _
  · rw [quantitySum_cons]
    exact foldl_add_eq_sum StoredAggregate.add StoredAggregate.quantity (fun _ _ => rfl) rest _
  · rw [foldl_add_eq_first StoredAggregate.add StoredAggregate.unitPrice fun _ _ => rfl]
    rfl

theorem mem_unionKeys {α : Type} {left right : List (String × α)} :
    key ∈ ((left ++ right).map Prod.fst).dedup.insertionSort (· ≤ ·) ↔
      left.lookup key ≠ none ∨ right.lookup key ≠ none := by
  have hkeys : ∀ groups : List (String × α), key ∈ groups.map Prod.fst ↔
      groups.lookup key ≠ none := by
    intro groups
    rw [← Option.isSome_iff_ne_none, List.lookup_isSome_iff]
    simp
  rw [mem_sorted, List.mem_dedup, List.map_append, List.mem_append, hkeys, hkeys]

theorem entryOf_eq_none {α β : Type} {start : α → β} {add : β → α → β} {items : List α} :
    entryOf start add items = none ↔ items = [] := by
  cases items <;> simp [entryOf]

theorem engine_lookup_eq_none :
    (aggregateLines rt lines).lookup key = none ↔ engineLines rt lines key = [] := by
  rw [lookup_aggregateLines, entryOf_eq_none]

theorem stored_lookup_eq_none :
    (aggregateStoredLines rt lines).lookup key = none ↔ storedLines rt lines key = [] := by
  rw [lookup_aggregateStoredLines, entryOf_eq_none]

/-- An entry of the engine, by the lines of its key. -/
theorem engine_lookup_eq_some {entry : LineAggregate}
    (h : (aggregateLines rt lines).lookup key = some entry) :
    entry.quantity = quantitySum (engineLines rt lines key) ∧
      some entry.unitPrice = ((engineLines rt lines key).map effectiveUnitPrice).getLast? := by
  rw [lookup_aggregateLines] at h
  cases hlines : engineLines rt lines key with
  | nil => rw [hlines] at h; cases h
  | cons line rest =>
    obtain ⟨entry', hentry, hvalues⟩ := @entryOf_engine line rest
    rw [hlines, hentry] at h
    cases h
    exact hvalues

/-- An entry of the read model, by the lines of its key. -/
theorem stored_lookup_eq_some {entry : StoredAggregate}
    (h : (aggregateStoredLines rt lines).lookup key = some entry) :
    entry.itemKey = key ∧ entry.quantity = quantitySum (storedLines rt lines key) ∧
      some entry.unitPrice = ((storedLines rt lines key).map effectiveUnitPrice).head? := by
  rw [lookup_aggregateStoredLines] at h
  cases hlines : storedLines rt lines key with
  | nil => rw [hlines] at h; cases h
  | cons line rest =>
    obtain ⟨entry', hentry, hkey, hvalues⟩ := @entryOf_stored rt line rest
    have hline : line ∈ storedLines rt lines key := by rw [hlines]; exact List.mem_cons_self
    rw [hlines, hentry] at h
    cases h
    exact ⟨hkey.trans (of_decide_eq_true (List.mem_filter.mp hline).2), hvalues⟩

/-! ## What is reported -/

theorem mem_engineKeys {kind : LineChangeType} :
    key ∈ engineKeys rt before after kind ↔
      ((aggregateLines rt before).lookup key ≠ none ∨ (aggregateLines rt after).lookup key ≠ none) ∧
        changeType ((aggregateLines rt before).lookup key)
          ((aggregateLines rt after).lookup key) = kind := by
  simp only [engineKeys, compareDocumentLines, List.mem_map, List.mem_filter, beq_iff_eq]
  constructor
  · intro h
    obtain ⟨change, ⟨⟨k, hk, rfl⟩, hkind⟩, rfl⟩ := h
    exact ⟨mem_unionKeys.mp hk, hkind⟩
  · intro h
    exact ⟨_, ⟨⟨key, mem_unionKeys.mpr h.1, rfl⟩, h.2⟩, rfl⟩

theorem changeType_common (old new : LineAggregate) :
    changeType (some old) (some new) ≠ .added ∧ changeType (some old) (some new) ≠ .removed := by
  simp only [changeType]
  split_ifs <;> exact ⟨LineChangeType.noConfusion, LineChangeType.noConfusion⟩

theorem mem_engine_added : key ∈ engineKeys rt before after .added ↔
    engineLines rt before key = [] ∧ engineLines rt after key ≠ [] := by
  simp only [mem_engineKeys, ne_eq, ← engine_lookup_eq_none]
  cases (aggregateLines rt before).lookup key with
  | none => simp [changeType]
  | some old =>
    cases (aggregateLines rt after).lookup key with
    | none => simp [changeType]
    | some new => simp [(changeType_common old new).1]

theorem mem_engine_removed : key ∈ engineKeys rt before after .removed ↔
    engineLines rt before key ≠ [] ∧ engineLines rt after key = [] := by
  simp only [mem_engineKeys, ne_eq, ← engine_lookup_eq_none]
  cases (aggregateLines rt before).lookup key with
  | none => simp [changeType]
  | some old =>
    cases (aggregateLines rt after).lookup key with
    | none => simp [changeType]
    | some new => simp [(changeType_common old new).2]

theorem mem_stored_added :
    key ∈ (storedLineDiff rt before after).added.map StoredAggregate.itemKey ↔
      storedLines rt before key = [] ∧ storedLines rt after key ≠ [] := by
  simp only [storedLineDiff, List.mem_map, List.mem_filterMap, storedKeys, mem_unionKeys, ne_eq,
    ← stored_lookup_eq_none]
  constructor
  · intro h
    obtain ⟨entry, ⟨k, -, hentry⟩, rfl⟩ := h
    split at hentry
    · next hold =>
      rw [(stored_lookup_eq_some hentry).1]
      exact ⟨Option.isNone_iff_eq_none.mp hold, by rw [hentry]; exact Option.some_ne_none _⟩
    · cases hentry
  · intro h
    obtain ⟨entry, hentry⟩ := Option.ne_none_iff_exists'.mp h.2
    refine ⟨entry, ⟨key, Or.inr h.2, ?_⟩, (stored_lookup_eq_some hentry).1⟩
    rw [h.1, hentry]
    rfl

theorem mem_stored_removed :
    key ∈ (storedLineDiff rt before after).removed.map StoredAggregate.itemKey ↔
      storedLines rt before key ≠ [] ∧ storedLines rt after key = [] := by
  simp only [storedLineDiff, List.mem_map, List.mem_filterMap, storedKeys, mem_unionKeys, ne_eq,
    ← stored_lookup_eq_none]
  constructor
  · intro h
    obtain ⟨entry, ⟨k, -, hentry⟩, rfl⟩ := h
    split at hentry
    · next hnew =>
      rw [(stored_lookup_eq_some hentry).1]
      exact ⟨by rw [hentry]; exact Option.some_ne_none _, Option.isNone_iff_eq_none.mp hnew⟩
    · cases hentry
  · intro h
    obtain ⟨entry, hentry⟩ := Option.ne_none_iff_exists'.mp h.1
    refine ⟨entry, ⟨key, Or.inl h.1, ?_⟩, (stored_lookup_eq_some hentry).1⟩
    rw [h.2, hentry]
    rfl

/-- The values of a common item, from the lines of its key on both sides. -/
structure ItemOf (item : CommonItem) (left right : List DocumentLine)
    (price : List DocumentLine → Option (Option Money)) : Prop where
  beforeLines : left ≠ []
  afterLines : right ≠ []
  beforeQuantity : item.beforeQuantity = quantitySum left
  afterQuantity : item.afterQuantity = quantitySum right
  beforeUnitPrice : some item.beforeUnitPrice = price left
  afterUnitPrice : some item.afterUnitPrice = price right

def lastPrice (lines : List DocumentLine) : Option (Option Money) :=
  (lines.map effectiveUnitPrice).getLast?

def firstPrice (lines : List DocumentLine) : Option (Option Money) :=
  (lines.map effectiveUnitPrice).head?

theorem mem_engineItems {item : CommonItem} : item ∈ engineItems rt before after ↔
    ItemOf item (engineLines rt before item.itemKey) (engineLines rt after item.itemKey)
      lastPrice := by
  have hlookup : item ∈ engineItems rt before after ↔ ∃ old new,
      (aggregateLines rt before).lookup item.itemKey = some old ∧
        (aggregateLines rt after).lookup item.itemKey = some new ∧
        item = ⟨item.itemKey, old.quantity, new.quantity, old.unitPrice, new.unitPrice⟩ := by
    simp only [engineItems, compareDocumentLines, List.mem_filterMap, List.mem_map]
    constructor
    · intro h
      obtain ⟨change, ⟨k, -, rfl⟩, hitem⟩ := h
      dsimp only at hitem
      cases hold : (aggregateLines rt before).lookup k with
      | none => rw [hold] at hitem; cases hitem
      | some old =>
        cases hnew : (aggregateLines rt after).lookup k with
        | none => rw [hold, hnew] at hitem; cases hitem
        | some new =>
          rw [hold, hnew] at hitem
          cases hitem
          exact ⟨old, new, hold, hnew, rfl⟩
    · intro h
      obtain ⟨old, new, hold, hnew, hitem⟩ := h
      have hkey : (aggregateLines rt before).lookup item.itemKey ≠ none := by
        rw [hold]; exact Option.some_ne_none _
      refine ⟨_, ⟨item.itemKey, mem_unionKeys.mpr (Or.inl hkey), rfl⟩, ?_⟩
      dsimp only
      rw [hold, hnew, hitem]
      rfl
  rw [hlookup]
  constructor
  · intro h
    obtain ⟨old, new, hold, hnew, hitem⟩ := h
    obtain ⟨hq, hp⟩ := engine_lookup_eq_some hold
    obtain ⟨hq', hp'⟩ := engine_lookup_eq_some hnew
    rw [hitem]
    exact
      { beforeLines := fun h => by rw [engine_lookup_eq_none.mpr h] at hold; cases hold
        afterLines := fun h => by rw [engine_lookup_eq_none.mpr h] at hnew; cases hnew
        beforeQuantity := hq
        afterQuantity := hq'
        beforeUnitPrice := hp
        afterUnitPrice := hp' }
  · intro h
    obtain ⟨old, hold⟩ :=
      Option.ne_none_iff_exists'.mp fun hn => h.beforeLines (engine_lookup_eq_none.mp hn)
    obtain ⟨new, hnew⟩ :=
      Option.ne_none_iff_exists'.mp fun hn => h.afterLines (engine_lookup_eq_none.mp hn)
    obtain ⟨hq, hp⟩ := engine_lookup_eq_some hold
    obtain ⟨hq', hp'⟩ := engine_lookup_eq_some hnew
    refine ⟨old, new, hold, hnew, ?_⟩
    rw [hq, hq', ← h.beforeQuantity, ← h.afterQuantity,
      Option.some.inj (hp.trans h.beforeUnitPrice.symm),
      Option.some.inj (hp'.trans h.afterUnitPrice.symm)]

theorem mem_storedCommon {old new : StoredAggregate} :
    (key, old, new) ∈ storedCommon rt before after ↔
      (aggregateStoredLines rt before).lookup key = some old ∧
        (aggregateStoredLines rt after).lookup key = some new := by
  simp only [storedCommon, List.mem_filterMap, storedKeys, mem_unionKeys]
  constructor
  · intro h
    obtain ⟨k, -, hentry⟩ := h
    split at hentry
    · next hold hnew =>
      cases hentry
      exact ⟨hold, hnew⟩
    · cases hentry
  · intro h
    refine ⟨key, Or.inl (by rw [h.1]; exact Option.some_ne_none _), ?_⟩
    rw [h.1, h.2]

theorem mem_storedItems {item : CommonItem} : item ∈ storedItems rt before after ↔
    ItemOf item (storedLines rt before item.itemKey) (storedLines rt after item.itemKey)
      firstPrice := by
  simp only [storedItems, List.mem_map]
  constructor
  · intro h
    obtain ⟨⟨k, old, new⟩, hmem, rfl⟩ := h
    obtain ⟨hold, hnew⟩ := mem_storedCommon.mp hmem
    obtain ⟨-, hq, hp⟩ := stored_lookup_eq_some hold
    obtain ⟨-, hq', hp'⟩ := stored_lookup_eq_some hnew
    exact
      { beforeLines := fun h => by rw [stored_lookup_eq_none.mpr h] at hold; cases hold
        afterLines := fun h => by rw [stored_lookup_eq_none.mpr h] at hnew; cases hnew
        beforeQuantity := hq
        afterQuantity := hq'
        beforeUnitPrice := hp
        afterUnitPrice := hp' }
  · intro h
    obtain ⟨old, hold⟩ :=
      Option.ne_none_iff_exists'.mp fun hn => h.beforeLines (stored_lookup_eq_none.mp hn)
    obtain ⟨new, hnew⟩ :=
      Option.ne_none_iff_exists'.mp fun hn => h.afterLines (stored_lookup_eq_none.mp hn)
    obtain ⟨-, hq, hp⟩ := stored_lookup_eq_some hold
    obtain ⟨-, hq', hp'⟩ := stored_lookup_eq_some hnew
    refine ⟨(item.itemKey, old, new), mem_storedCommon.mpr ⟨hold, hnew⟩, ?_⟩
    rw [hq, hq', ← h.beforeQuantity, ← h.afterQuantity,
      Option.some.inj (hp.trans h.beforeUnitPrice.symm),
      Option.some.inj (hp'.trans h.afterUnitPrice.symm)]

/-- A common item exists for every key of both collections. -/
theorem exists_itemOf {left right : List DocumentLine}
    {price : List DocumentLine → Option (Option Money)} (key : String) (hleft : left ≠ [])
    (hright : right ≠ []) (hprice : ∀ lines, lines ≠ [] → ∃ p, price lines = some p) :
    ∃ item : CommonItem, item.itemKey = key ∧ ItemOf item left right price := by
  obtain ⟨p, hp⟩ := hprice left hleft
  obtain ⟨p', hp'⟩ := hprice right hright
  exact ⟨⟨key, _, _, p, p'⟩, rfl, hleft, hright, rfl, rfl, hp.symm, hp'.symm⟩

theorem exists_lastPrice {left : List DocumentLine} (h : left ≠ []) :
    ∃ p, lastPrice left = some p := by
  obtain ⟨line, rest, rfl⟩ := List.exists_cons_of_ne_nil h
  exact ⟨_, by rw [lastPrice, List.map_cons, List.getLast?_cons]⟩

theorem exists_firstPrice {left : List DocumentLine} (h : left ≠ []) :
    ∃ p, firstPrice left = some p := by
  obtain ⟨line, rest, rfl⟩ := List.exists_cons_of_ne_nil h
  exact ⟨effectiveUnitPrice line, rfl⟩

/-- The collections have the same keys, and each common key the same values on
both sides. -/
structure Comparable (rt : Runtime) (before after : List DocumentLine) : Prop where
  beforeKeys : SameKeys rt before
  afterKeys : SameKeys rt after
  values : ∀ key, engineLines rt before key ≠ [] → engineLines rt after key ≠ [] →
    SameValues rt before key ∧ SameValues rt after key

/-- Exactly then do the two diffs agree. -/
theorem diffsAgree_iff (rt : Runtime) (before after : List DocumentLine) :
    DiffsAgree rt before after ↔ Comparable rt before after := by
  constructor
  · intro h
    have hcommon : ∀ key, (engineLines rt before key ≠ [] ∧ engineLines rt after key ≠ []) ↔
        (storedLines rt before key ≠ [] ∧ storedLines rt after key ≠ []) := by
      intro key
      constructor
      · intro hkey
        obtain ⟨item, rfl, hitem⟩ := exists_itemOf key hkey.1 hkey.2 fun _ => exists_lastPrice
        have hstored := mem_storedItems.mp ((h.common item).mp (mem_engineItems.mpr hitem))
        exact ⟨hstored.beforeLines, hstored.afterLines⟩
      · intro hkey
        obtain ⟨item, rfl, hitem⟩ := exists_itemOf key hkey.1 hkey.2 fun _ => exists_firstPrice
        have hengine := mem_engineItems.mp ((h.common item).mpr (mem_storedItems.mpr hitem))
        exact ⟨hengine.beforeLines, hengine.afterLines⟩
    have hadded := fun key => mem_engine_added.symm.trans ((h.added key).trans mem_stored_added)
    have hremoved := fun key =>
      mem_engine_removed.symm.trans ((h.removed key).trans mem_stored_removed)
    refine ⟨fun key => ?_, fun key => ?_, fun key hbefore hafter => ?_⟩
    · have h1 := hadded key
      have h2 := hremoved key
      have h3 := hcommon key
      tauto
    · have h1 := hadded key
      have h2 := hremoved key
      have h3 := hcommon key
      tauto
    · obtain ⟨item, rfl, hitem⟩ := exists_itemOf key hbefore hafter fun _ => exists_lastPrice
      have hstored := mem_storedItems.mp ((h.common item).mp (mem_engineItems.mpr hitem))
      exact ⟨⟨hitem.beforeQuantity.symm.trans hstored.beforeQuantity,
          hitem.beforeUnitPrice.symm.trans hstored.beforeUnitPrice⟩,
        hitem.afterQuantity.symm.trans hstored.afterQuantity,
        hitem.afterUnitPrice.symm.trans hstored.afterUnitPrice⟩
  · intro h
    refine ⟨fun key => ?_, fun key => ?_, fun item => ?_⟩
    · rw [mem_engine_added, mem_stored_added, h.beforeKeys key, Ne, h.afterKeys key]
    · rw [mem_engine_removed, mem_stored_removed, Ne, h.beforeKeys key, h.afterKeys key]
    · rw [mem_engineItems, mem_storedItems]
      constructor
      · intro hitem
        obtain ⟨hb, ha⟩ := h.values item.itemKey hitem.beforeLines hitem.afterLines
        exact
          { beforeLines := fun hn => hitem.beforeLines ((h.beforeKeys _).mpr hn)
            afterLines := fun hn => hitem.afterLines ((h.afterKeys _).mpr hn)
            beforeQuantity := hitem.beforeQuantity.trans hb.1
            afterQuantity := hitem.afterQuantity.trans ha.1
            beforeUnitPrice := hitem.beforeUnitPrice.trans hb.2
            afterUnitPrice := hitem.afterUnitPrice.trans ha.2 }
      · intro hitem
        have hleft : engineLines rt before item.itemKey ≠ [] :=
          fun hn => hitem.beforeLines ((h.beforeKeys _).mp hn)
        have hright : engineLines rt after item.itemKey ≠ [] :=
          fun hn => hitem.afterLines ((h.afterKeys _).mp hn)
        obtain ⟨hb, ha⟩ := h.values item.itemKey hleft hright
        exact
          { beforeLines := hleft
            afterLines := hright
            beforeQuantity := hitem.beforeQuantity.trans hb.1.symm
            afterQuantity := hitem.afterQuantity.trans ha.1.symm
            beforeUnitPrice := hitem.beforeUnitPrice.trans hb.2.symm
            afterUnitPrice := hitem.afterUnitPrice.trans ha.2.symm }

/-! ## An accent -/

/-- ASCII text and one accented letter. -/
def accentRuntime : Runtime where
  __ := asciiRuntime
  nfkd value := String.ofList (value.toList.flatMap fun char =>
    if char = 'È' then ['E', Char.ofNat 0x300] else [char])
  nfkd_empty := by decide
  combining char := char == Char.ofNat 0x300

/-- Prebill and receipt print one item with and without its accent: no change
for the engine, one item removed and one added for the read model. -/
theorem accents_disagree : ¬∀ (rt : Runtime) before after, DiffsAgree rt before after := by
  intro h
  have hadded := (h accentRuntime [{ sequence := 1, description := some "CAFFÈ" }]
    [{ sequence := 1, description := some "CAFFE" }]).added "DESC:CAFFE"
  revert hadded
  decide +kernel

end RetailPrintGuard.Db.LineDiff

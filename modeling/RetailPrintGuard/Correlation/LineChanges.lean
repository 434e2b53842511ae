import RetailPrintGuard.Db.LineDiff

/-! # What the line diff reports

The aggregate of a key depends on the lines of that key alone: quantities and
totals are their sums, the unit price is that of the last line, description,
discount and source are those of the first. -/
namespace RetailPrintGuard.Correlation.LineChanges
open RetailPrintGuard.Common.Python RetailPrintGuard.Common.Domain
open RetailPrintGuard.Correlation.Lines RetailPrintGuard.Db.LineDiff
open RetailPrintGuard.Library.Grouping RetailPrintGuard.Library.ListOrder

/-- The sum of the values that are present, none without any. -/
def sumPresent (values : List (Option Money)) : Option Money :=
  if values.any Option.isSome then some (values.filterMap id).sum else none

/-- The aggregate of the lines of one key. -/
def aggregateOf (lines : List DocumentLine) : Option LineAggregate :=
  lines.head?.map fun first =>
    { description := first.description
      quantity := quantitySum lines
      unitPrice := (lines.getLast?.map effectiveUnitPrice).getD none
      discount := first.discount
      total := sumPresent (lines.map DocumentLine.lineTotal)
      source := first.source }

/-- The entry of a key in the diff. -/
def lineChange (key : String) (old new : Option LineAggregate) : LineChange where
  itemKey := key
  description := (new.or old).bind LineAggregate.description
  changeType := changeType old new
  beforeQuantity := old.map LineAggregate.quantity
  afterQuantity := new.map LineAggregate.quantity
  beforeUnitPrice := old.bind LineAggregate.unitPrice
  afterUnitPrice := new.bind LineAggregate.unitPrice
  beforeDiscount := old.bind LineAggregate.discount
  afterDiscount := new.bind LineAggregate.discount
  beforeTotal := old.bind LineAggregate.total
  afterTotal := new.bind LineAggregate.total
  beforeSource := old.bind LineAggregate.source
  afterSource := new.bind LineAggregate.source

variable {rt : Runtime} {before after lines : List DocumentLine} {key : String}

/-! ## Aggregates -/

theorem sumPresent_cons (value : Option Money) (values : List (Option Money)) :
    sumPresent (value :: values) =
      match value, sumPresent values with
      | some v, some total => some (v + total)
      | some v, none => some v
      | none, total => total := by
  cases value with
  | none => simp [sumPresent]
  | some v =>
    by_cases h : values.any Option.isSome = true
    · simp [sumPresent, h]
    · have hnone : values.filterMap id = [] := by
        rw [List.filterMap_eq_nil_iff]
        intro value hvalue
        simpa using fun hsome => h (List.any_eq_true.mpr ⟨value, hvalue, hsome⟩)
      have hone : (some v :: values).filterMap id = [v] := by
        rw [List.filterMap_cons_some (show id (some v) = some v from rfl), hnone]
      have hrest : sumPresent values = none := if_neg h
      rw [hrest, sumPresent, hone]
      simp

/-- The totals met later are added to the one there is. -/
theorem total_foldl (rest : List DocumentLine) (entry : LineAggregate) :
    (rest.foldl LineAggregate.add entry).total =
      sumPresent (entry.total :: rest.map DocumentLine.lineTotal) := by
  induction rest generalizing entry with
  | nil => cases h : entry.total <;> simp [sumPresent, h]
  | cons line rest ih =>
    rw [List.foldl_cons, ih, List.map_cons]
    simp only [sumPresent_cons, LineAggregate.add]
    cases entry.total <;> cases line.lineTotal <;>
      cases sumPresent (rest.map DocumentLine.lineTotal) <;> simp [add_assoc]

theorem entryOf_eq_aggregateOf (lines : List DocumentLine) :
    entryOf LineAggregate.ofLine LineAggregate.add lines = aggregateOf lines := by
  cases lines with
  | nil => rfl
  | cons line rest =>
    have hquantity := foldl_add_eq_sum LineAggregate.add LineAggregate.quantity
      (fun _ _ => rfl) rest (.ofLine line)
    have hprice := foldl_add_eq_last LineAggregate.add LineAggregate.unitPrice unitPrice_add rest
      (.ofLine line)
    have hdescription := foldl_add_eq_first LineAggregate.add LineAggregate.description
      (fun _ _ => rfl) rest (.ofLine line)
    have hdiscount := foldl_add_eq_first LineAggregate.add LineAggregate.discount
      (fun _ _ => rfl) rest (.ofLine line)
    have hsource := foldl_add_eq_first LineAggregate.add LineAggregate.source
      (fun _ _ => rfl) rest (.ofLine line)
    have htotal := total_foldl rest (.ofLine line)
    simp only [entryOf, aggregateOf, List.head?_cons, Option.map_some, Option.some.injEq]
    generalize hentry : rest.foldl LineAggregate.add (.ofLine line) = entry at *
    cases entry
    simp only [LineAggregate.mk.injEq] at *
    refine ⟨hdescription, ?_, ?_, hdiscount, ?_, hsource⟩
    · rw [hquantity, quantitySum_cons]
      rfl
    · rw [hprice, List.getLast?_cons, List.getLast?_map]
      cases rest.getLast? <;> rfl
    · rw [htotal]
      rfl

theorem lookup_eq_aggregateOf :
    (aggregateLines rt lines).lookup key = aggregateOf (engineLines rt lines key) := by
  rw [lookup_aggregateLines, entryOf_eq_aggregateOf]

theorem aggregateOf_eq_none : aggregateOf lines = none ↔ lines = [] := by
  cases lines <;> simp [aggregateOf]

/-- `sorted(set(left) | set(right))` -/
def diffKeys (rt : Runtime) (before after : List DocumentLine) : List String :=
  ((aggregateLines rt before ++ aggregateLines rt after).map Prod.fst).dedup.insertionSort (· ≤ ·)

theorem mem_diffKeys : key ∈ diffKeys rt before after ↔
    engineLines rt before key ≠ [] ∨ engineLines rt after key ≠ [] := by
  rw [diffKeys, mem_unionKeys, ne_eq, ne_eq, engine_lookup_eq_none, engine_lookup_eq_none]

theorem nodup_diffKeys : (diffKeys rt before after).Nodup :=
  ((List.perm_insertionSort _ _).nodup_iff).mpr (List.nodup_dedup _)

theorem compareDocumentLines_eq : compareDocumentLines rt before after =
    (diffKeys rt before after).map fun key =>
      lineChange key (aggregateOf (engineLines rt before key))
        (aggregateOf (engineLines rt after key)) := by
  unfold compareDocumentLines
  refine List.map_congr_left fun key _ => ?_
  simp only [lookup_eq_aggregateOf]
  rfl

/-- An entry of the diff is made from the lines of its key. -/
theorem eq_lineChange {change : LineChange} (h : change ∈ compareDocumentLines rt before after) :
    change = lineChange change.itemKey (aggregateOf (engineLines rt before change.itemKey))
      (aggregateOf (engineLines rt after change.itemKey)) := by
  rw [compareDocumentLines_eq] at h
  obtain ⟨key, -, rfl⟩ := List.mem_map.mp h
  rfl

/-- Collections with lines of the same keys are compared key by key. -/
theorem diffKeys_congr {before' after' : List DocumentLine}
    (h : ∀ key, (engineLines rt before key ≠ [] ∨ engineLines rt after key ≠ []) ↔
      (engineLines rt before' key ≠ [] ∨ engineLines rt after' key ≠ [])) :
    diffKeys rt before after = diffKeys rt before' after' := by
  refine insertionSort_eq_of_mem_iff (fun a _ b _ => le_antisymm) (List.nodup_dedup _)
    (List.nodup_dedup _) fun key => ?_
  have hkeys := h key
  rw [← mem_diffKeys, ← mem_diffKeys] at hkeys
  simpa [diffKeys] using hkeys

/-! ## The order of the lines -/

/-- A line with a code or a description that is not blank. -/
def Named (rt : Runtime) (line : DocumentLine) : Prop :=
  rt.normalise line.itemCode ≠ none ∨ rt.normalise line.description ≠ none

/-- The place of such a line does not matter. -/
theorem lineKey_named {line : DocumentLine} (h : Named rt line) (i j : Nat) :
    lineKey rt line i = lineKey rt line j := by
  unfold lineKey
  cases hcode : rt.normalise line.itemCode with
  | some code => rfl
  | none =>
    cases hdescription : rt.normalise line.description with
    | some description => rfl
    | none => exact absurd hdescription (h.resolve_left fun hne => hne hcode)

theorem engineLines_named (h : ∀ line ∈ lines, Named rt line) :
    engineLines rt lines key = lines.filter fun line => lineKey rt line 0 = key := by
  have hplace : lines.zipIdx.filter (fun item => lineKey rt item.1 item.2 = key) =
      lines.zipIdx.filter ((fun line => decide (lineKey rt line 0 = key)) ∘ Prod.fst) := by
    refine List.filter_congr fun item hitem => ?_
    have hline : item.1 ∈ lines := by
      have hfst := List.mem_map_of_mem (f := Prod.fst) hitem
      rwa [List.zipIdx_map_fst] at hfst
    simp only [Function.comp_apply, lineKey_named (h item.1 hline) item.2 0]
  rw [engineLines, hplace, ← List.filter_map, List.zipIdx_map_fst]

theorem engineLines_perm {lines' : List DocumentLine} (h : ∀ line ∈ lines, Named rt line)
    (hperm : lines.Perm lines') : (engineLines rt lines key).Perm (engineLines rt lines' key) := by
  rw [engineLines_named h, engineLines_named fun line hline => h line (hperm.mem_iff.mpr hline)]
  exact hperm.filter _

theorem sumPresent_perm {values values' : List (Option Money)} (h : values.Perm values') :
    sumPresent values = sumPresent values' := by
  unfold sumPresent
  rw [(h.filterMap id).sum_eq, h.any_eq]

theorem quantitySum_perm {lines' : List DocumentLine} (h : lines.Perm lines') :
    quantitySum lines = quantitySum lines' :=
  (h.map _).sum_eq

/-- All the lines have one value of a field. -/
def OneValue {α : Type} (field : DocumentLine → α) (lines : List DocumentLine) : Prop :=
  ∀ line ∈ lines, ∀ other ∈ lines, field line = field other

/-- The change is one of quantity or of presence. -/
def quantityLevel : LineChangeType → Option LineChangeType
  | .priceChanged | .discountChanged | .unchanged => none
  | kind => some kind

/-- What two entries of a key have in common when the lines are in another
order. -/
structure SameUpToOrder (rt : Runtime) (before after : List DocumentLine)
    (change other : LineChange) : Prop where
  itemKey : other.itemKey = change.itemKey
  beforeQuantity : other.beforeQuantity = change.beforeQuantity
  afterQuantity : other.afterQuantity = change.afterQuantity
  beforeTotal : other.beforeTotal = change.beforeTotal
  afterTotal : other.afterTotal = change.afterTotal
  quantityLevel : quantityLevel other.changeType = quantityLevel change.changeType
  beforeUnitPrice : OneValue effectiveUnitPrice (engineLines rt before change.itemKey) →
    other.beforeUnitPrice = change.beforeUnitPrice
  afterUnitPrice : OneValue effectiveUnitPrice (engineLines rt after change.itemKey) →
    other.afterUnitPrice = change.afterUnitPrice
  beforeDiscount : OneValue DocumentLine.discount (engineLines rt before change.itemKey) →
    other.beforeDiscount = change.beforeDiscount
  afterDiscount : OneValue DocumentLine.discount (engineLines rt after change.itemKey) →
    other.afterDiscount = change.afterDiscount
  changeType : (∀ side ∈ [before, after],
      OneValue effectiveUnitPrice (engineLines rt side change.itemKey) ∧
        OneValue DocumentLine.discount (engineLines rt side change.itemKey)) →
    other.changeType = change.changeType

/-- Two aggregates of the same lines in another order. -/
structure Reordered (lines : List DocumentLine) (entry other : Option LineAggregate) : Prop where
  present : other.isSome = entry.isSome
  quantity : other.map LineAggregate.quantity = entry.map LineAggregate.quantity
  total : other.bind LineAggregate.total = entry.bind LineAggregate.total
  unitPrice : OneValue effectiveUnitPrice lines →
    other.bind LineAggregate.unitPrice = entry.bind LineAggregate.unitPrice
  discount : OneValue DocumentLine.discount lines →
    other.bind LineAggregate.discount = entry.bind LineAggregate.discount

theorem reordered_of_perm {lines' : List DocumentLine} (h : lines.Perm lines') :
    Reordered lines (aggregateOf lines) (aggregateOf lines') := by
  cases hl : lines with
  | nil =>
    rw [hl] at h
    rw [List.nil_perm.mp h]
    exact ⟨rfl, rfl, rfl, fun _ => rfl, fun _ => rfl⟩
  | cons line rest =>
    cases hl' : lines' with
    | nil =>
      rw [hl'] at h
      rw [List.perm_nil.mp h] at hl
      cases hl
    | cons line' rest' =>
      have hperm : (line :: rest).Perm (line' :: rest') := hl ▸ hl' ▸ h
      have hfirst : line' ∈ line :: rest := hperm.mem_iff.mpr List.mem_cons_self
      have hlast : (line' :: rest').getLast (List.cons_ne_nil _ _) ∈ line :: rest :=
        hperm.mem_iff.mpr (List.getLast_mem _)
      refine ⟨rfl, ?_, ?_, fun hone => ?_, fun hone => ?_⟩
      · exact congrArg some (quantitySum_perm hperm).symm
      · exact (sumPresent_perm (hperm.map _)).symm
      · have hprice := hone _ hlast _ (List.getLast_mem (List.cons_ne_nil line rest))
        simpa [aggregateOf, List.getLast?_eq_some_getLast] using hprice
      · exact hone _ hfirst _ List.mem_cons_self

theorem quantityLevel_eq (old new : LineAggregate) :
    quantityLevel (changeType (some old) (some new)) =
      if old.quantity ≠ new.quantity then some .quantityChanged else none := by
  simp only [changeType]
  split_ifs <;> rfl

theorem Reordered.cases {entry other : Option LineAggregate} (h : Reordered lines entry other) :
    (entry = none ∧ other = none) ∨
      ∃ old old', entry = some old ∧ other = some old' ∧ old'.quantity = old.quantity := by
  have hpresent := h.present
  have hquantity := h.quantity
  cases entry with
  | none => exact Or.inl ⟨rfl, Option.isNone_iff_eq_none.mp (by simpa using hpresent)⟩
  | some old =>
    obtain ⟨old', rfl⟩ := Option.isSome_iff_exists.mp hpresent
    exact Or.inr ⟨old, old', rfl, rfl, Option.some.inj hquantity⟩

theorem quantityLevel_reordered {old new old' new' : Option LineAggregate}
    {left right : List DocumentLine} (hold : Reordered left old old')
    (hnew : Reordered right new new') :
    quantityLevel (changeType old' new') = quantityLevel (changeType old new) := by
  obtain ⟨rfl, rfl⟩ | ⟨a, a', rfl, rfl, ha⟩ := hold.cases
  · rfl
  · obtain ⟨rfl, rfl⟩ | ⟨b, b', rfl, rfl, hb⟩ := hnew.cases
    · rfl
    · rw [quantityLevel_eq, quantityLevel_eq, ha, hb]

theorem changeType_reordered {old new old' new' : Option LineAggregate}
    {left right : List DocumentLine} (hold : Reordered left old old')
    (hnew : Reordered right new new')
    (hleft : OneValue effectiveUnitPrice left ∧ OneValue DocumentLine.discount left)
    (hright : OneValue effectiveUnitPrice right ∧ OneValue DocumentLine.discount right) :
    changeType old' new' = changeType old new := by
  have hprice := hold.unitPrice hleft.1
  have hprice' := hnew.unitPrice hright.1
  have hdiscount := hold.discount hleft.2
  have hdiscount' := hnew.discount hright.2
  obtain ⟨rfl, rfl⟩ | ⟨a, a', rfl, rfl, ha⟩ := hold.cases
  · rfl
  · obtain ⟨rfl, rfl⟩ | ⟨b, b', rfl, rfl, hb⟩ := hnew.cases
    · rfl
    · simp only [Option.bind_some] at hprice hprice' hdiscount hdiscount'
      simp only [changeType, ha, hb, hprice, hprice', hdiscount, hdiscount']

theorem lineChange_reordered {old new old' new' : Option LineAggregate}
    (hold : Reordered (engineLines rt before key) old old')
    (hnew : Reordered (engineLines rt after key) new new') :
    SameUpToOrder rt before after (lineChange key old new) (lineChange key old' new') where
  itemKey := rfl
  beforeQuantity := hold.quantity
  afterQuantity := hnew.quantity
  beforeTotal := hold.total
  afterTotal := hnew.total
  quantityLevel := quantityLevel_reordered hold hnew
  beforeUnitPrice := hold.unitPrice
  afterUnitPrice := hnew.unitPrice
  beforeDiscount := hold.discount
  afterDiscount := hnew.discount
  changeType hone := changeType_reordered hold hnew (hone before (by simp)) (hone after (by simp))

/-- Lines in another order change nothing but unit prices and discounts that
are not the same on all lines of a key, and what follows from these. -/
theorem compareDocumentLines_reordered {before' after' : List DocumentLine}
    (hbefore : ∀ line ∈ before, Named rt line) (hafter : ∀ line ∈ after, Named rt line)
    (hb : before.Perm before') (ha : after.Perm after') :
    List.Forall₂ (SameUpToOrder rt before after) (compareDocumentLines rt before after)
      (compareDocumentLines rt before' after') := by
  have hkeys : diffKeys rt before after = diffKeys rt before' after' := by
    refine diffKeys_congr fun key => ?_
    have hnil : ∀ {lines lines' : List DocumentLine}, lines.Perm lines' →
        (lines ≠ [] ↔ lines' ≠ []) := fun h =>
      not_congr ⟨fun hl => (hl ▸ h).nil_eq.symm, fun hl => (hl ▸ h).eq_nil⟩
    exact or_congr (hnil (engineLines_perm hbefore hb)) (hnil (engineLines_perm hafter ha))
  rw [compareDocumentLines_eq, compareDocumentLines_eq, ← hkeys, List.forall₂_map_left_iff,
    List.forall₂_map_right_iff, List.forall₂_same]
  intro key _
  exact lineChange_reordered (reordered_of_perm (engineLines_perm hbefore hb))
    (reordered_of_perm (engineLines_perm hafter ha))

/-- What an entry says of its key: all but the description and the sources. -/
def values (change : LineChange) : LineChange :=
  { change with description := none, beforeSource := none, afterSource := none }

/-- Two lines of one article, at one price or at two. -/
def article (quantity unitPrice : Money) : DocumentLine where
  sequence := 1
  itemCode := some "A"
  quantity := some quantity
  unitPrice := some unitPrice

theorem article_named (quantity unitPrice : Money) :
    Named asciiRuntime (article quantity unitPrice) :=
  Or.inl (show asciiRuntime.normalise (some "A") ≠ none by decide +kernel)

theorem compareDocumentLines_reordered_articles :
    List.Forall₂ (SameUpToOrder asciiRuntime [article 10000 50000, article 20000 50000] [])
      (compareDocumentLines asciiRuntime [article 10000 50000, article 20000 50000] [])
      (compareDocumentLines asciiRuntime [article 20000 50000, article 10000 50000] []) :=
  compareDocumentLines_reordered
    (fun line hline => by
      obtain rfl | rfl := List.mem_pair.mp hline
      · exact article_named 10000 50000
      · exact article_named 20000 50000)
    (fun _ hline => absurd hline List.not_mem_nil) (List.Perm.swap _ _ _) (List.Perm.refl _)

/-- Of two prices of an article the diff reports the one printed last. -/
theorem prices_follow_order : ¬∀ (rt : Runtime) (before before' after after' : List DocumentLine),
    (∀ line ∈ before, Named rt line) → (∀ line ∈ after, Named rt line) →
    before.Perm before' → after.Perm after' →
    (compareDocumentLines rt before after).map values =
      (compareDocumentLines rt before' after').map values := by
  intro h
  have hsame := h asciiRuntime [article 10000 50000, article 10000 30000]
    [article 10000 30000, article 10000 50000] [] []
    (fun line hline => by
      obtain rfl | rfl := List.mem_pair.mp hline
      · exact article_named 10000 50000
      · exact article_named 10000 30000)
    (fun _ hline => absurd hline List.not_mem_nil) (List.Perm.swap _ _ _) (List.Perm.refl _)
  revert hsame
  decide +kernel

/-! ## The sums of a key -/

/-- One side of an entry reports the sums over the lines of its key. -/
structure Conserved (lines : List DocumentLine) (quantity total discount : Option Money) :
    Prop where
  quantity : quantity = if lines.isEmpty then none else some (quantitySum lines)
  total : total = sumPresent (lines.map DocumentLine.lineTotal)
  discount : discount = sumPresent (lines.map DocumentLine.discount)

/-- Every entry reports the sums of both its sides. -/
def Conserves (rt : Runtime) (before after : List DocumentLine) : Prop :=
  ∀ change ∈ compareDocumentLines rt before after,
    Conserved (engineLines rt before change.itemKey) change.beforeQuantity change.beforeTotal
        change.beforeDiscount ∧
      Conserved (engineLines rt after change.itemKey) change.afterQuantity change.afterTotal
        change.afterDiscount

/-- The later lines add nothing to the discount of the first. -/
def DiscountOnFirst : List DocumentLine → Prop
  | [] => True
  | first :: later =>
    match first.discount with
    | none => ∀ line ∈ later, line.discount = none
    | some _ => (later.filterMap DocumentLine.discount).sum = 0

theorem sumPresent_eq_none {values : List (Option Money)} :
    sumPresent values = none ↔ ∀ value ∈ values, value = none := by
  unfold sumPresent
  split_ifs with h
  · obtain ⟨value, hvalue, hsome⟩ := List.any_eq_true.mp h
    refine iff_of_false id fun hall => ?_
    rw [hall value hvalue] at hsome
    cases hsome
  · simpa [Option.not_isSome_iff_eq_none] using h

theorem sumPresent_getD (values : List (Option Money)) :
    (sumPresent values).getD 0 = (values.filterMap id).sum := by
  cases h : sumPresent values with
  | none =>
    have hnone : values.filterMap id = [] :=
      List.filterMap_eq_nil_iff.mpr (sumPresent_eq_none.mp h)
    rw [hnone]
    rfl
  | some total =>
    unfold sumPresent at h
    split_ifs at h
    exact (Option.some.inj h).symm

/-- One side of an entry, from the lines of its key. -/
theorem conserved_iff : Conserved lines ((aggregateOf lines).map LineAggregate.quantity)
      ((aggregateOf lines).bind LineAggregate.total)
      ((aggregateOf lines).bind LineAggregate.discount) ↔ DiscountOnFirst lines := by
  cases lines with
  | nil => exact iff_of_true ⟨rfl, rfl, rfl⟩ trivial
  | cons first later =>
    have hdiscount : first.discount = sumPresent ((first :: later).map DocumentLine.discount) ↔
        DiscountOnFirst (first :: later) := by
      have hsum := sumPresent_getD (later.map DocumentLine.discount)
      rw [List.filterMap_map, Function.id_comp] at hsum
      rw [List.map_cons, sumPresent_cons, DiscountOnFirst]
      cases first.discount with
      | none =>
        have hnone := @sumPresent_eq_none (later.map DocumentLine.discount)
        rw [List.forall_mem_map] at hnone
        exact eq_comm.trans hnone
      | some discount =>
        rw [← hsum]
        cases sumPresent (later.map DocumentLine.discount) with
        | none => simp
        | some total => simp
    constructor
    · exact fun h => hdiscount.mp h.discount
    · exact fun h => ⟨rfl, rfl, hdiscount.mpr h⟩

/-- The sums are reported exactly when no later line of a key adds to the
discount of its first line. -/
theorem conserves_iff (rt : Runtime) (before after : List DocumentLine) :
    Conserves rt before after ↔ ∀ key, DiscountOnFirst (engineLines rt before key) ∧
      DiscountOnFirst (engineLines rt after key) := by
  constructor
  · intro h key
    by_cases hkey : key ∈ diffKeys rt before after
    · have hchange := h (lineChange key (aggregateOf (engineLines rt before key))
        (aggregateOf (engineLines rt after key)))
      rw [compareDocumentLines_eq] at hchange
      obtain ⟨hleft, hright⟩ := hchange (List.mem_map_of_mem hkey)
      exact ⟨conserved_iff.mp hleft, conserved_iff.mp hright⟩
    · rw [mem_diffKeys, not_or, ne_eq, ne_eq, not_not, not_not] at hkey
      rw [hkey.1, hkey.2]
      exact ⟨trivial, trivial⟩
  · intro h change hchange
    obtain ⟨hleft, hright⟩ := h change.itemKey
    rw [eq_lineChange hchange]
    exact ⟨conserved_iff.mpr hleft, conserved_iff.mpr hright⟩

/-- The same article with a discount. -/
def discounted (quantity unitPrice discount : Money) : DocumentLine :=
  { article quantity unitPrice with discount := some discount }

/-- A discount on the second line of an article is lost. -/
theorem second_discount_lost : ¬∀ (rt : Runtime) (before after : List DocumentLine),
    Conserves rt before after := by
  intro h
  have hlines := h asciiRuntime [article 10000 50000, discounted 10000 50000 20000] []
  have hreport : (compareDocumentLines asciiRuntime
      [article 10000 50000, discounted 10000 50000 20000] []).map (fun change =>
        (change.itemKey, change.beforeDiscount)) = [("CODE:A", none)] := by decide +kernel
  obtain ⟨change, rest, hchanges, hchange, -⟩ := List.map_eq_cons_iff.mp hreport
  obtain ⟨hkey, hnone⟩ := Prod.mk.inj hchange
  have hdiscount := (hlines change (hchanges ▸ List.mem_cons_self)).1.discount
  rw [hkey, hnone] at hdiscount
  revert hdiscount
  decide +kernel

/-! ## The diff the other way round -/

def mirroredType : LineChangeType → LineChangeType
  | .added => .removed
  | .removed => .added
  | kind => kind

/-- An entry with its sides exchanged. -/
def mirrored (change : LineChange) : LineChange where
  itemKey := change.itemKey
  description := change.description
  changeType := mirroredType change.changeType
  beforeQuantity := change.afterQuantity
  afterQuantity := change.beforeQuantity
  beforeUnitPrice := change.afterUnitPrice
  afterUnitPrice := change.beforeUnitPrice
  beforeDiscount := change.afterDiscount
  afterDiscount := change.beforeDiscount
  beforeTotal := change.afterTotal
  afterTotal := change.beforeTotal
  beforeSource := change.afterSource
  afterSource := change.beforeSource

/-- The description of the first line of a key, in one collection or else in
the other. -/
def itemDescription (rt : Runtime) (lines otherLines : List DocumentLine) (key : String) :
    Option String :=
  ((engineLines rt lines key).head?.or (engineLines rt otherLines key).head?).bind
    DocumentLine.description

/-- What the diff of a collection with itself, its keys and the diff the other
way round say. -/
structure DiffLaws (rt : Runtime) (before after : List DocumentLine) : Prop where
  reflexive : ∀ change ∈ compareDocumentLines rt before before, change.changeType = .unchanged
  sorted : ((compareDocumentLines rt before after).map LineChange.itemKey).Pairwise (· < ·)
  keys : ∀ key, key ∈ (compareDocumentLines rt before after).map LineChange.itemKey ↔
    key ∈ lineKeys rt before ∨ key ∈ lineKeys rt after
  /-- both sides are exchanged, and the description is that of the other one -/
  mirrored : compareDocumentLines rt after before =
    (compareDocumentLines rt before after).map fun change =>
      { mirrored change with description := itemDescription rt before after change.itemKey }
  description : ∀ change ∈ compareDocumentLines rt before after,
    change.description = itemDescription rt after before change.itemKey

theorem changeType_self (entry : LineAggregate) :
    changeType (some entry) (some entry) = .unchanged := by
  simp [changeType]

theorem changeType_mirrored {old new : Option LineAggregate} (h : old.isSome ∨ new.isSome) :
    changeType new old = mirroredType (changeType old new) := by
  cases old with
  | none =>
    obtain ⟨entry, rfl⟩ := Option.isSome_iff_exists.mp (h.resolve_left Bool.false_ne_true)
    rfl
  | some a =>
    cases new with
    | none => rfl
    | some b =>
      have hquantity : (b.quantity ≠ a.quantity) = (a.quantity ≠ b.quantity) := propext ne_comm
      have hprice : (b.unitPrice ≠ a.unitPrice) = (a.unitPrice ≠ b.unitPrice) := propext ne_comm
      have hdiscount : (b.discount ≠ a.discount) = (a.discount ≠ b.discount) := propext ne_comm
      simp only [changeType, hquantity, hprice, hdiscount]
      split_ifs <;> rfl

theorem description_aggregateOf :
    (aggregateOf lines).bind LineAggregate.description =
      lines.head?.bind DocumentLine.description := by
  cases lines <;> rfl

/-- The description of an entry is that of the side after, when it is there. -/
theorem description_lineChange :
    (lineChange key (aggregateOf (engineLines rt before key))
        (aggregateOf (engineLines rt after key))).description =
      itemDescription rt after before key := by
  unfold lineChange itemDescription
  cases hafter : engineLines rt after key with
  | nil => exact description_aggregateOf
  | cons line rest => rfl

theorem itemKeys_compareDocumentLines :
    (compareDocumentLines rt before after).map LineChange.itemKey = diffKeys rt before after := by
  rw [compareDocumentLines_eq, List.map_map]
  exact List.map_id _

theorem mem_lineKeys : key ∈ lineKeys rt lines ↔ engineLines rt lines key ≠ [] := by
  have hsome : key ∈ lineKeys rt lines ↔ (aggregateLines rt lines).lookup key ≠ none := by
    rw [← Option.isSome_iff_ne_none, List.lookup_isSome_iff, lineKeys]
    simp
  rw [hsome, ne_eq, engine_lookup_eq_none]

theorem diffKeys_comm : diffKeys rt after before = diffKeys rt before after :=
  diffKeys_congr fun _ => or_comm

theorem compareDocumentLines_laws (rt : Runtime) (before after : List DocumentLine) :
    DiffLaws rt before after where
  reflexive change hchange := by
    rw [compareDocumentLines_eq] at hchange
    obtain ⟨key, hkey, rfl⟩ := List.mem_map.mp hchange
    rw [mem_diffKeys, or_self, ne_eq, ← aggregateOf_eq_none] at hkey
    obtain ⟨entry, hentry⟩ := Option.ne_none_iff_exists'.mp hkey
    rw [hentry]
    exact changeType_self entry
  sorted := by
    rw [itemKeys_compareDocumentLines]
    have hle := List.pairwise_insertionSort (· ≤ ·)
      ((aggregateLines rt before ++ aggregateLines rt after).map Prod.fst).dedup
    exact (hle.and nodup_diffKeys).imp fun h => lt_of_le_of_ne h.1 h.2
  keys key := by
    rw [itemKeys_compareDocumentLines, mem_diffKeys, mem_lineKeys, mem_lineKeys]
  mirrored := by
    rw [compareDocumentLines_eq, compareDocumentLines_eq, diffKeys_comm, List.map_map]
    refine List.map_congr_left fun key hkey => ?_
    have hpresent : (aggregateOf (engineLines rt before key)).isSome ∨
        (aggregateOf (engineLines rt after key)).isSome := by
      rw [Option.isSome_iff_ne_none, Option.isSome_iff_ne_none, ne_eq, ne_eq,
        aggregateOf_eq_none, aggregateOf_eq_none]
      exact mem_diffKeys.mp hkey
    have hdescription := @description_lineChange rt after before key
    have htype := changeType_mirrored hpresent
    simp only [lineChange] at hdescription
    simp only [Function.comp_apply, lineChange, mirrored, hdescription, htype]
  description change hchange := by
    rw [eq_lineChange hchange]
    exact description_lineChange

/-- One article under two descriptions keeps that of the side after. -/
theorem descriptions_not_kept : ¬∀ (rt : Runtime) (before after : List DocumentLine),
    compareDocumentLines rt after before =
      (compareDocumentLines rt before after).map mirrored := by
  intro h
  have hsame := h asciiRuntime [{ article 10000 50000 with description := some "Pizza" }]
    [{ article 10000 50000 with description := some "Pizza grande" }]
  revert hsame
  decide +kernel

end RetailPrintGuard.Correlation.LineChanges

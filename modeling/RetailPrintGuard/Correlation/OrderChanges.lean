import RetailPrintGuard.Correlation.LineChanges
import RetailPrintGuard.Correlation.OrderLines

/-! # Runs of order changes

A change touches the entry of its own key. The entries of an order are found
again from its lines, so changes can be applied in several parts. -/
namespace RetailPrintGuard.Correlation.OrderChanges
open RetailPrintGuard.Common.Python RetailPrintGuard.Common.Domain
open RetailPrintGuard.Common.Amounts RetailPrintGuard.Library.DecimalFloat
open RetailPrintGuard.Library.Grouping RetailPrintGuard.Correlation.Lines
open RetailPrintGuard.Correlation.LineChanges RetailPrintGuard.Correlation.OrderLines

section
variable (rt : Runtime)

/-- The entries of the base lines. -/
def baseState (before : List OrderLine) : List (String × OrderLine) :=
  before.zipIdx.foldl (addBefore rt) []

/-- The change removes its line, whatever its quantity. -/
def explicitlyRemoved (delta : OrderLine) : Bool := delta.columns.removed || delta.columns.cancelled

/-- `delta.quantity or ZERO` -/
def deltaQuantity (delta : OrderLine) : Decimal := quantityOr (stored 0) delta.quantity

/-- A change without a line becomes one. -/
def inserts (delta : OrderLine) : Bool :=
  !explicitlyRemoved delta && !nonPositive (deltaQuantity delta)

/-- The quantity a change leaves. -/
def residual (current delta : OrderLine) : Decimal :=
  add precision (quantityOr unit current.quantity) (deltaQuantity delta)

/-- A change takes its line away. -/
def takesAway (current delta : OrderLine) : Bool :=
  explicitlyRemoved delta || nonPositive (residual current delta)

/-- What a change makes of the line of its key. -/
def stepLine (current : Option OrderLine) (delta : OrderLine) : Option OrderLine :=
  match current with
  | none => if inserts delta then some delta else none
  | some current =>
    if takesAway current delta then none
    else some (changedLine current delta (residual current delta))

end

variable {rt : Runtime} {before deltas : List OrderLine} {state : List (String × OrderLine)}

/-! ## Keys -/

/-- The key of a line without a code and a description. -/
def Positional (key : String) : Prop := ∃ n : Nat, key = "POSITION:" ++ toString n

theorem lineKey_unnamed {line : DocumentLine} (h : ¬Named rt line) (n : Nat) :
    lineKey rt line n = "POSITION:" ++ toString n := by
  simp only [Named, ne_eq, not_or, not_not] at h
  simp only [lineKey, h.1, h.2]

theorem not_positional {line : DocumentLine} (h : Named rt line) (n : Nat) :
    ¬Positional (lineKey rt line n) := by
  intro hpositional
  obtain ⟨m, hm⟩ := hpositional
  have hfirst := congrArg (fun key : String => key.toList.head?) hm
  unfold lineKey at hfirst
  cases hcode : rt.normalise line.itemCode with
  | some code => simp [hcode] at hfirst
  | none =>
    cases hdescription : rt.normalise line.description with
    | some description => simp [hcode, hdescription] at hfirst
    | none => exact (h.resolve_left fun hne => hne hcode) hdescription

/-- The entries of an order: every line under a key of its own, which is its
line key at some place. -/
structure Keyed (rt : Runtime) (state : List (String × OrderLine)) : Prop where
  nodup : (state.map Prod.fst).Nodup
  keyed : ∀ entry ∈ state, ∃ n, entry.1 = lineKey rt entry.2.columns n

theorem keyed_nil : Keyed rt [] := ⟨List.nodup_nil, fun _ h => absurd h List.not_mem_nil⟩

/-- A line under its key takes the place of the one there was. -/
theorem Keyed.assign (h : Keyed rt state) (key : String) (value : Option OrderLine)
    (hvalue : ∀ line ∈ value, ∃ n, key = lineKey rt line.columns n) :
    Keyed rt (Library.Grouping.assign state key value) := by
  refine ⟨nodup_assign h.nodup, fun entry hentry => ?_⟩
  obtain hold | ⟨line, hline, rfl⟩ := mem_assign hentry
  · exact h.keyed entry hold
  · exact hvalue line hline

/-! ## One change -/

theorem lineKey_changedLine (current delta : OrderLine) (residual : Decimal) (n : Nat) :
    lineKey rt (changedLine current delta residual).columns n = lineKey rt current.columns n := rfl

/-- A change decides on the entry of its key. -/
theorem applyDelta_eq (delta : OrderLine) (ordinal : Nat) :
    applyDelta rt state (delta, ordinal) =
      assign state (lineKey rt delta.columns ordinal)
        (stepLine (state.lookup (lineKey rt delta.columns ordinal)) delta) := by
  simp only [applyDelta]
  cases hlookup : state.lookup (lineKey rt delta.columns ordinal) with
  | none =>
    have hfilter : (state.filter fun entry => entry.1 ≠ lineKey rt delta.columns ordinal) =
        state := by
      rw [List.filter_eq_self]
      intro entry hentry
      have hne := List.lookup_eq_none_iff.mp hlookup entry hentry
      exact decide_eq_true fun heq => bne_iff_ne.mp hne heq.symm
    by_cases hinserts : inserts delta = true
    · have hkept : (explicitlyRemoved delta || nonPositive (deltaQuantity delta)) = false := by
        simpa [inserts] using hinserts
      simp only [stepLine, if_pos hinserts, assign, hlookup]
      exact if_neg (by rw [← Bool.not_eq_true] at hkept; exact hkept)
    · have hdropped : (explicitlyRemoved delta || nonPositive (deltaQuantity delta)) = true := by
        rw [inserts, ← Bool.not_or, Bool.not_eq_true', Bool.not_eq_false] at hinserts
        exact hinserts
      simp only [stepLine, if_neg hinserts, assign, hfilter]
      exact if_pos hdropped
  | some current =>
    by_cases hremoved : takesAway current delta = true
    · simp only [stepLine, if_pos hremoved, assign]
      exact if_pos hremoved
    · simp only [stepLine, if_neg hremoved, assign, hlookup, Option.isSome_some, if_true]
      exact if_neg hremoved

/-- What a change leaves under its key has that key. -/
theorem Keyed.stepLine (h : Keyed rt state) (delta : OrderLine) (ordinal : Nat) :
    ∀ line ∈ OrderChanges.stepLine (state.lookup (lineKey rt delta.columns ordinal)) delta,
      ∃ n, lineKey rt delta.columns ordinal = lineKey rt line.columns n := by
  intro line hline
  cases hlookup : state.lookup (lineKey rt delta.columns ordinal) with
  | none =>
    rw [hlookup] at hline
    simp only [OrderChanges.stepLine, Option.mem_def, Option.ite_none_right_eq_some] at hline
    rw [← Option.some.inj hline.2]
    exact ⟨ordinal, rfl⟩
  | some current =>
    rw [hlookup] at hline
    simp only [OrderChanges.stepLine, Option.mem_def, Option.ite_none_left_eq_some] at hline
    obtain ⟨-, hchanged⟩ := hline
    obtain ⟨n, hn⟩ := h.keyed _ (mem_of_lookup hlookup)
    rw [← Option.some.inj hchanged]
    exact ⟨n, hn.trans (lineKey_changedLine _ _ _ n).symm⟩

theorem Keyed.applyDelta (h : Keyed rt state) (item : OrderLine × Nat) :
    Keyed rt (OrderLines.applyDelta rt state item) := by
  rw [applyDelta_eq]
  exact h.assign _ _ (h.stepLine item.1 item.2)

theorem Keyed.applyDeltas (h : Keyed rt state) (items : List (OrderLine × Nat)) :
    Keyed rt (items.foldl (OrderLines.applyDelta rt) state) :=
  List.foldlRecOn items _ h fun _ hstate item _ => hstate.applyDelta item

/-! ## Changes in two parts -/

theorem Keyed.addBefore (h : Keyed rt state) (item : OrderLine × Nat) :
    Keyed rt (OrderLines.addBefore rt state item) := by
  rw [OrderLines.addBefore, addItem_eq_assign]
  refine h.assign _ _ fun line hline => ?_
  obtain rfl := Option.some.inj hline
  cases hlookup : state.lookup (lineKey rt item.1.columns item.2) with
  | none => exact ⟨item.2, rfl⟩
  | some current => exact h.keyed _ (mem_of_lookup hlookup)

theorem keyed_baseState (before : List OrderLine) : Keyed rt (baseState rt before) :=
  List.foldlRecOn before.zipIdx _ keyed_nil fun _ hstate item _ => hstate.addBefore item

theorem position_injective {i j : Nat}
    (h : "POSITION:" ++ toString i = "POSITION:" ++ toString j) : i = j := by
  have hdigits := congrArg String.toList ((String.append_right_inj _).mp h)
  have hnumbers := congrArg (fun digits => Nat.ofDigitChars 10 digits 0) hdigits
  simpa [Nat.toString_eq_ofList_toDigits] using hnumbers

/-- The lines of an order have distinct keys again, wherever they stand. -/
theorem Keyed.nodup_lineKeys (h : Keyed rt state) :
    (state.zipIdx.map fun item => lineKey rt item.1.2.columns item.2).Nodup := by
  have hnodup : state.zipIdx.Nodup := by
    refine List.Nodup.of_map Prod.snd ?_
    rw [List.zipIdx_map_snd]
    exact List.nodup_range'
  refine List.Nodup.map_on ?_ hnodup
  intro x hx y hy hkeys
  obtain ⟨entry, i⟩ := x
  obtain ⟨other, j⟩ := y
  rw [List.mem_zipIdx_iff_getElem?] at hx hy
  obtain ⟨n, hn⟩ := h.keyed entry (List.mem_of_getElem? hx)
  obtain ⟨m, hm⟩ := h.keyed other (List.mem_of_getElem? hy)
  by_cases hentry : Named rt entry.2.columns
  · by_cases hother : Named rt other.2.columns
    · have hkey : entry.1 = other.1 := by
        rw [hn, hm, lineKey_named hentry n i, lineKey_named hother m j]
        exact hkeys
      have hplace : (state.map Prod.fst)[i]? = (state.map Prod.fst)[j]? := by
        rw [List.getElem?_map, List.getElem?_map, hx, hy]
        exact congrArg some hkey
      have hi : i < (state.map Prod.fst).length := by
        rw [List.length_map]
        exact (List.getElem?_eq_some_iff.mp hx).1
      obtain rfl := (List.getElem?_inj hi h.nodup).mp hplace
      exact Prod.ext (Option.some.inj (hx.symm.trans hy)) rfl
    · exact absurd ⟨j, hkeys.trans (lineKey_unnamed hother j)⟩ (not_positional hentry i)
  · by_cases hother : Named rt other.2.columns
    · exact absurd ⟨i, hkeys.symm.trans (lineKey_unnamed hentry i)⟩ (not_positional hother j)
    · have hplaces := hkeys
      simp only [lineKey_unnamed hentry, lineKey_unnamed hother] at hplaces
      obtain rfl := position_injective hplaces
      exact Prod.ext (Option.some.inj (hx.symm.trans hy)) rfl

/-- The lines of an order give its entries again, with other places at most. -/
theorem sameEntries_baseState (h : Keyed rt state) :
    SameEntries (fun key => ¬Positional key) state (baseState rt (state.map Prod.snd)) := by
  have hitems : baseState rt (state.map Prod.snd) =
      state.zipIdx.map fun item => (lineKey rt item.1.2.columns item.2, item.1.2) := by
    have hfold := @foldl_addItem_of_nodup (OrderLine × Nat) OrderLine String _ _ _
      (fun item => lineKey rt item.1.columns item.2) Prod.fst
      (fun current item =>
        { current with
          quantity := some (add precision (quantityOr unit current.quantity)
            (quantityOr unit item.1.quantity)) })
      (state.map Prod.snd).zipIdx [] (by
        rw [List.map_nil, List.nil_append, List.zipIdx_map, List.map_map]
        exact h.nodup_lineKeys)
    rw [baseState]
    refine hfold.trans ?_
    rw [List.nil_append, List.zipIdx_map, List.map_map]
    rfl
  rw [hitems]
  suffices haux : ∀ (entries : List (String × OrderLine)) (n : Nat),
      (∀ entry ∈ entries, ∃ m, entry.1 = lineKey rt entry.2.columns m) →
      SameEntries (fun key => ¬Positional key) entries ((entries.zipIdx n).map fun item =>
        (lineKey rt item.1.2.columns item.2, item.1.2)) from haux state 0 h.keyed
  intro entries
  induction entries with
  | nil => exact fun _ _ => .nil
  | cons entry entries ih =>
    intro n hkeyed
    refine .cons ⟨rfl, fun key hkey => ?_⟩ (ih (n + 1) fun other hother =>
      hkeyed other (List.mem_cons_of_mem _ hother))
    obtain ⟨m, hm⟩ := hkeyed entry List.mem_cons_self
    by_cases hnamed : Named rt entry.2.columns
    · rw [hm, lineKey_named hnamed m n]
    · rw [hm]
      simp only [lineKey_unnamed hnamed]
      exact iff_of_false (fun heq => hkey ⟨m, heq.symm⟩) fun heq => hkey ⟨n, heq.symm⟩

theorem sameEntries_applyDeltas {others : List (String × OrderLine)}
    (h : SameEntries (fun key => ¬Positional key) state others)
    (items items' : List (OrderLine × Nat)) (hsame : items.map Prod.fst = items'.map Prod.fst)
    (hnamed : ∀ item ∈ items, Named rt item.1.columns) :
    SameEntries (fun key => ¬Positional key) (items.foldl (applyDelta rt) state)
      (items'.foldl (applyDelta rt) others) := by
  induction items generalizing state others items' with
  | nil =>
    obtain rfl := List.map_eq_nil_iff.mp hsame.symm
    exact h
  | cons item items ih =>
    obtain ⟨item', rest, rfl, hitem, hrest⟩ := List.map_eq_cons_iff.mp hsame.symm
    obtain ⟨delta, i⟩ := item
    obtain ⟨delta', j⟩ := item'
    obtain rfl : delta' = delta := hitem
    have hdelta := hnamed _ List.mem_cons_self
    have hkey : ¬Positional (lineKey rt delta'.columns i) := not_positional hdelta i
    have hstep : SameEntries (fun key => ¬Positional key) (applyDelta rt state (delta', i))
        (applyDelta rt others (delta', j)) := by
      rw [applyDelta_eq, applyDelta_eq, lineKey_named hdelta j i, ← h.lookup hkey]
      exact h.assign hkey _
    exact ih hstep rest hrest.symm fun item hitem => hnamed item (List.mem_cons_of_mem _ hitem)

/-- Changes may be applied in two parts. -/
theorem applyOrderChangeLines_append (rt : Runtime) (before first second : List OrderLine)
    (hsecond : ∀ delta ∈ second, Named rt delta.columns) :
    applyOrderChangeLines rt before (first ++ second) =
      applyOrderChangeLines rt (applyOrderChangeLines rt before first) second := by
  have hkeyed : Keyed rt (first.zipIdx.foldl (applyDelta rt) (baseState rt before)) :=
    (keyed_baseState before).applyDeltas _
  have hsame := sameEntries_applyDeltas (sameEntries_baseState hkeyed)
    (second.zipIdx first.length) second.zipIdx (by simp) fun item hitem => by
      have hfst := List.mem_map_of_mem (f := Prod.fst) hitem
      rw [List.zipIdx_map_fst] at hfst
      exact hsecond _ hfst
  have hlines := hsame.values
  simp only [applyOrderChangeLines, List.zipIdx_append, List.foldl_append, Nat.zero_add]
  exact hlines

/-- A line of pizzas at eight euro. -/
def pizzas (quantity : Money) : OrderLine :=
  .ofStored { sequence := 0, description := some "pizza", quantity := some quantity,
              unitPrice := some 80000, lineTotal := some 160000 }

theorem pizzas_named (quantity : Money) : Named asciiRuntime (pizzas quantity).columns :=
  Or.inr (show asciiRuntime.normalise (some "pizza") ≠ none by decide +kernel)

/-- Two pizzas are taken back, and one is ordered again. -/
theorem applyOrderChangeLines_append_pizzas :
    applyOrderChangeLines asciiRuntime [pizzas 20000] ([pizzas (-20000)] ++ [pizzas 10000]) =
      applyOrderChangeLines asciiRuntime
        (applyOrderChangeLines asciiRuntime [pizzas 20000] [pizzas (-20000)]) [pizzas 10000] :=
  applyOrderChangeLines_append asciiRuntime _ _ _ fun delta hdelta => by
    rw [List.mem_singleton.mp hdelta]
    exact pizzas_named 10000

/-! ## The line of a key -/

/-- The lines of a key, in order. -/
def ofKey (rt : Runtime) (lines : List OrderLine) (key : String) : List OrderLine :=
  lines.filter fun line => lineKey rt line.columns 0 = key

/-- A missing quantity counts as one. -/
def quantityOf (line : OrderLine) : Decimal := line.quantity.getD unit

/-- The sum of the quantities of base lines. -/
def baseQuantity : List OrderLine → Decimal
  | [] => stored 0
  | first :: later =>
    later.foldl (fun sum line => add precision sum (quantityOf line)) (quantityOf first)

/-- No quantity and no running sum of them is an explicit zero. -/
def ZeroFree (lines : List OrderLine) : Prop :=
  (∀ line ∈ lines, (quantityOf line).coefficient ≠ 0) ∧
    ∀ taken, taken <+: lines → taken ≠ [] → (baseQuantity taken).coefficient ≠ 0

/-- The quantity after changes that keep the line. -/
def changedQuantity (quantity : Decimal) (applied : List OrderLine) : Decimal :=
  applied.foldl (fun sum delta => add precision sum (deltaQuantity delta)) quantity

/-- The changes keep the line: none removes it, and its quantity stays
positive. -/
structure Keep (quantity : Decimal) (applied : List OrderLine) : Prop where
  notRemoved : ∀ delta ∈ applied, explicitlyRemoved delta = false
  positive : ∀ taken, taken <+: applied → taken ≠ [] →
    nonPositive (changedQuantity quantity taken) = false

theorem quantityOr_some {default quantity : Decimal} (h : quantity.coefficient ≠ 0) :
    quantityOr default (some quantity) = quantity := by
  simp [quantityOr, Option.filter_some, h]

theorem quantityOr_zero {default quantity : Decimal} (h : quantity.coefficient = 0) :
    quantityOr default (some quantity) = default := by
  simp [quantityOr, Option.filter_some, h]

theorem quantityOr_unit {line : OrderLine} (h : (quantityOf line).coefficient ≠ 0) :
    quantityOr unit line.quantity = quantityOf line := by
  unfold quantityOf at *
  cases hquantity : line.quantity with
  | none => rfl
  | some quantity =>
    rw [hquantity] at h
    exact quantityOr_some h

theorem coefficient_ne_zero {quantity : Decimal} (h : nonPositive quantity = false) :
    quantity.coefficient ≠ 0 := by
  intro hzero
  simp [nonPositive, hzero] at h

/-- What an inserting change brings is its own quantity. -/
theorem deltaQuantity_inserts {delta : OrderLine} (h : inserts delta = true) :
    deltaQuantity delta = quantityOf delta ∧ (quantityOf delta).coefficient ≠ 0 := by
  have hpositive : nonPositive (deltaQuantity delta) = false := by
    simp only [inserts, Bool.and_eq_true, Bool.not_eq_true'] at h
    exact h.2
  have hsome : deltaQuantity delta = quantityOf delta := by
    unfold deltaQuantity quantityOf at *
    cases hquantity : delta.quantity with
    | none =>
      rw [hquantity] at hpositive
      cases hpositive
    | some quantity =>
      rw [hquantity] at hpositive
      by_cases hzero : quantity.coefficient = 0
      · rw [quantityOr_zero hzero] at hpositive
        cases hpositive
      · exact quantityOr_some hzero
  exact ⟨hsome, hsome ▸ coefficient_ne_zero hpositive⟩

theorem changedQuantity_concat (quantity : Decimal) (applied : List OrderLine)
    (delta : OrderLine) : changedQuantity quantity (applied ++ [delta]) =
      add precision (changedQuantity quantity applied) (deltaQuantity delta) := by
  simp [changedQuantity]

theorem keep_nil (quantity : Decimal) : Keep quantity [] :=
  ⟨fun _ h => absurd h List.not_mem_nil, fun _ h hne => absurd (List.prefix_nil.mp h) hne⟩

theorem Keep.concat {quantity : Decimal} {applied : List OrderLine} (h : Keep quantity applied)
    {delta : OrderLine} (hremoved : explicitlyRemoved delta = false)
    (hpositive : nonPositive (changedQuantity quantity (applied ++ [delta])) = false) :
    Keep quantity (applied ++ [delta]) := by
  refine ⟨fun other hother => ?_, fun taken htaken hne => ?_⟩
  · obtain hother | hother := List.mem_append.mp hother
    · exact h.notRemoved other hother
    · rw [List.mem_singleton.mp hother]
      exact hremoved
  · obtain rfl | htaken := List.prefix_concat_iff.mp htaken
    · exact hpositive
    · exact h.positive taken htaken hne

/-- A line that is there, the line it was last inserted as and the changes
since. -/
structure History (start : Option OrderLine) (changes : List OrderLine)
    (line first : OrderLine) (applied : List OrderLine) : Prop where
  inserted : (start = some first ∧ changes = applied) ∨
    ∃ past, changes = past ++ first :: applied ∧ past.foldl stepLine start = none ∧
      inserts first = true
  keep : Keep (quantityOf first) applied
  quantity : quantityOf line = changedQuantity (quantityOf first) applied
  nonzero : (quantityOf line).coefficient ≠ 0
  total : applied ≠ [] → ∀ price, effectiveUnitPrice line.columns = some price →
    line.lineTotal = some (mul precision (stored price) (quantityOf line))

/-- The step of a history: the line is inserted, or one more change keeps it. -/
theorem exists_history {start : Option OrderLine} {changes : List OrderLine} {line : OrderLine}
    (hstart : ∀ first ∈ start, (quantityOf first).coefficient ≠ 0)
    (h : changes.foldl stepLine start = some line) :
    ∃ first applied, History start changes line first applied := by
  induction changes using List.reverseRecOn generalizing line with
  | nil =>
    exact ⟨line, [], Or.inl ⟨h, rfl⟩, keep_nil _, rfl, hstart line h, fun hne => absurd rfl hne⟩
  | append_singleton changes delta ih =>
    rw [List.foldl_append, List.foldl_cons, List.foldl_nil] at h
    cases hbefore : changes.foldl stepLine start with
    | none =>
      rw [hbefore] at h
      simp only [stepLine, Option.ite_none_right_eq_some] at h
      obtain ⟨hinserts, hline⟩ := h
      obtain rfl := Option.some.inj hline
      exact ⟨delta, [], Or.inr ⟨changes, rfl, hbefore, hinserts⟩, keep_nil _, rfl,
        (deltaQuantity_inserts hinserts).2, fun hne => absurd rfl hne⟩
    | some current =>
      obtain ⟨first, applied, hhistory⟩ := ih hbefore
      rw [hbefore] at h
      simp only [stepLine, takesAway, Option.ite_none_left_eq_some, Bool.or_eq_true, not_or,
        Bool.not_eq_true] at h
      obtain ⟨⟨hremoved, hpositive⟩, hline⟩ := h
      obtain rfl := Option.some.inj hline
      have hresidual : residual current delta =
          changedQuantity (quantityOf first) (applied ++ [delta]) := by
        rw [residual, quantityOr_unit hhistory.nonzero, hhistory.quantity, changedQuantity_concat]
      refine ⟨first, applied ++ [delta], ?_, ?_, hresidual, coefficient_ne_zero hpositive, ?_⟩
      · obtain ⟨hfirst, hchanges⟩ | ⟨past, hchanges, hpast, hinserts⟩ := hhistory.inserted
        · exact Or.inl ⟨hfirst, by rw [hchanges]⟩
        · exact Or.inr ⟨past, by rw [hchanges, List.append_assoc, List.cons_append], hpast, hinserts⟩
      · exact hhistory.keep.concat hremoved (hresidual ▸ hpositive)
      · intro _ price hprice
        have hcurrent : effectiveUnitPrice current.columns = some price := hprice
        simp only [changedLine, hcurrent]
        rfl

theorem foldl_stepLine_none {changes : List OrderLine}
    (h : ∀ delta ∈ changes, inserts delta = false) : changes.foldl stepLine none = none := by
  induction changes with
  | nil => rfl
  | cons delta changes ih =>
    have hstep : stepLine none delta = none := by
      rw [stepLine, h delta List.mem_cons_self]
      rfl
    rw [List.foldl_cons, hstep]
    exact ih fun other hother => h other (List.mem_cons_of_mem _ hother)

/-- Why there is no line: none was inserted, or the last one was taken away. -/
theorem foldl_stepLine_eq_none {start : Option OrderLine} {changes : List OrderLine} :
    changes.foldl stepLine start = none ↔
      (start = none ∧ ∀ delta ∈ changes, inserts delta = false) ∨
      ∃ past removal later current, changes = past ++ removal :: later ∧
        past.foldl stepLine start = some current ∧ takesAway current removal = true ∧
        ∀ delta ∈ later, inserts delta = false := by
  constructor
  · intro h
    induction changes using List.reverseRecOn with
    | nil => exact Or.inl ⟨h, fun _ hdelta => absurd hdelta List.not_mem_nil⟩
    | append_singleton changes delta ih =>
      rw [List.foldl_append, List.foldl_cons, List.foldl_nil] at h
      cases hbefore : changes.foldl stepLine start with
      | none =>
        have hdelta : inserts delta = false := by
          rw [hbefore] at h
          simpa [stepLine] using h
        have hlast : ∀ deltas : List OrderLine, (∀ other ∈ deltas, inserts other = false) →
            ∀ other ∈ deltas ++ [delta], inserts other = false := by
          intro deltas hdeltas other hother
          obtain hother | hother := List.mem_append.mp hother
          · exact hdeltas other hother
          · rw [List.mem_singleton.mp hother]
            exact hdelta
        obtain ⟨hstart, hnone⟩ | ⟨past, removal, later, current, rfl, hpast, htakes, hlater⟩ :=
          ih hbefore
        · exact Or.inl ⟨hstart, hlast changes hnone⟩
        · exact Or.inr ⟨past, removal, later ++ [delta], current, by simp, hpast, htakes,
            hlast later hlater⟩
      | some current =>
        rw [hbefore] at h
        have htakes : takesAway current delta = true := by
          by_contra hkeeps
          rw [stepLine, if_neg hkeeps] at h
          cases h
        exact Or.inr ⟨changes, delta, [], current, rfl, hbefore, htakes,
          fun _ hother => absurd hother List.not_mem_nil⟩
  · intro h
    obtain ⟨rfl, hnone⟩ | ⟨past, removal, later, current, rfl, hpast, htakes, hlater⟩ := h
    · exact foldl_stepLine_none hnone
    · have hstep : stepLine (some current) removal = none := if_pos htakes
      rw [List.foldl_append, List.foldl_cons, hpast, hstep]
      exact foldl_stepLine_none hlater

/-! ## The entry of a key -/

/-- The base line of a key: later lines of the key add their quantity. -/
def mergeLine (current line : OrderLine) : OrderLine :=
  { current with
    quantity := some (add precision (quantityOr unit current.quantity)
      (quantityOr unit line.quantity)) }

theorem ofKey_zipIdx {lines : List OrderLine} (h : ∀ line ∈ lines, Named rt line.columns)
    (key : String) (n : Nat) :
    ((lines.zipIdx n).filter fun item => lineKey rt item.1.columns item.2 = key).map Prod.fst =
      ofKey rt lines key := by
  induction lines generalizing n with
  | nil => rfl
  | cons line lines ih =>
    have hline := h line List.mem_cons_self
    have hrest := ih (fun other hother => h other (List.mem_cons_of_mem _ hother)) (n + 1)
    rw [List.zipIdx_cons, ofKey]
    by_cases hkey : lineKey rt line.columns 0 = key
    · rw [List.filter_cons_of_pos (by simpa [lineKey_named hline n 0] using hkey),
        List.filter_cons_of_pos (by simpa using hkey), List.map_cons, hrest]
      rfl
    · rw [List.filter_cons_of_neg (by simpa [lineKey_named hline n 0] using hkey),
        List.filter_cons_of_neg (by simpa using hkey), hrest]
      rfl

theorem lookup_baseState (h : ∀ line ∈ before, Named rt line.columns) (key : String) :
    (baseState rt before).lookup key = entryOf id mergeLine (ofKey rt before key) := by
  have hlookup := @lookup_groupBy (OrderLine × Nat) OrderLine String _ _ _
    (fun item => lineKey rt item.1.columns item.2) Prod.fst
    (fun current item => mergeLine current item.1) before.zipIdx key
  refine hlookup.trans ?_
  rw [← ofKey_zipIdx h key 0]
  cases before.zipIdx.filter fun item => lineKey rt item.1.columns item.2 = key with
  | nil => rfl
  | cons item items => simp [entryOf, List.foldl_map]

/-- The changes of a key make its entry. -/
theorem lookup_applyDeltas (h : ∀ delta ∈ deltas, Named rt delta.columns) (key : String)
    (n : Nat) : ((deltas.zipIdx n).foldl (applyDelta rt) state).lookup key =
      (ofKey rt deltas key).foldl stepLine (state.lookup key) := by
  induction deltas generalizing state n with
  | nil => rfl
  | cons delta deltas ih =>
    have hdelta := h delta List.mem_cons_self
    rw [List.zipIdx_cons, List.foldl_cons, ofKey,
      ih fun other hother => h other (List.mem_cons_of_mem _ hother), applyDelta_eq,
      lineKey_named hdelta n 0, lookup_assign]
    by_cases hkey : lineKey rt delta.columns 0 = key
    · rw [List.filter_cons_of_pos (by simpa using hkey), if_pos hkey.symm, hkey]
      rfl
    · rw [List.filter_cons_of_neg (by simpa using hkey), if_neg fun heq => hkey heq.symm]
      rfl

/-- The entries of an order after changes. -/
def orderState (rt : Runtime) (before deltas : List OrderLine) : List (String × OrderLine) :=
  deltas.zipIdx.foldl (applyDelta rt) (baseState rt before)

theorem lookup_orderState (hbefore : ∀ line ∈ before, Named rt line.columns)
    (hdeltas : ∀ delta ∈ deltas, Named rt delta.columns) (key : String) :
    (orderState rt before deltas).lookup key =
      (ofKey rt deltas key).foldl stepLine (entryOf id mergeLine (ofKey rt before key)) := by
  rw [orderState, lookup_applyDeltas hdeltas, lookup_baseState hbefore]

/-- Every line of an order can be found by its key. -/
def AllNamed (rt : Runtime) (state : List (String × OrderLine)) : Prop :=
  ∀ entry ∈ state, Named rt entry.2.columns

theorem named_of_mem_zipIdx {lines : List OrderLine} (h : ∀ line ∈ lines, Named rt line.columns)
    {item : OrderLine × Nat} (hitem : item ∈ lines.zipIdx) : Named rt item.1.columns := by
  have hfst := List.mem_map_of_mem (f := Prod.fst) hitem
  rw [List.zipIdx_map_fst] at hfst
  exact h _ hfst

theorem allNamed_addBefore (h : AllNamed rt state) {item : OrderLine × Nat}
    (hitem : Named rt item.1.columns) : AllNamed rt (addBefore rt state item) := by
  intro entry hentry
  rw [addBefore, addItem_eq_assign] at hentry
  obtain hold | ⟨line, hline, rfl⟩ := mem_assign hentry
  · exact h entry hold
  · obtain rfl := Option.some.inj hline
    cases hlookup : state.lookup (lineKey rt item.1.columns item.2) with
    | none => exact hitem
    | some current =>
      have hcurrent := h _ (mem_of_lookup hlookup)
      exact hcurrent

theorem allNamed_applyDelta (h : AllNamed rt state) {item : OrderLine × Nat}
    (hitem : Named rt item.1.columns) : AllNamed rt (applyDelta rt state item) := by
  intro entry hentry
  rw [applyDelta_eq] at hentry
  obtain hold | ⟨line, hline, rfl⟩ := mem_assign hentry
  · exact h entry hold
  · cases hlookup : state.lookup (lineKey rt item.1.columns item.2) with
    | none =>
      rw [hlookup] at hline
      simp only [stepLine, Option.ite_none_right_eq_some] at hline
      rw [← Option.some.inj hline.2]
      exact hitem
    | some current =>
      rw [hlookup] at hline
      simp only [stepLine, Option.ite_none_left_eq_some] at hline
      have hcurrent := h _ (mem_of_lookup hlookup)
      rw [← Option.some.inj hline.2]
      exact hcurrent

theorem allNamed_orderState (hbefore : ∀ line ∈ before, Named rt line.columns)
    (hdeltas : ∀ delta ∈ deltas, Named rt delta.columns) :
    AllNamed rt (orderState rt before deltas) := by
  have hbase : AllNamed rt (baseState rt before) :=
    List.foldlRecOn before.zipIdx _ (fun _ h => absurd h List.not_mem_nil)
      fun _ hstate _ hitem => allNamed_addBefore hstate (named_of_mem_zipIdx hbefore hitem)
  exact List.foldlRecOn deltas.zipIdx _ hbase
    fun _ hstate _ hitem => allNamed_applyDelta hstate (named_of_mem_zipIdx hdeltas hitem)

theorem keyed_orderState : Keyed rt (orderState rt before deltas) :=
  (keyed_baseState before).applyDeltas _

/-- The lines of the result, each under its line key. -/
theorem mem_applyOrderChangeLines (hbefore : ∀ line ∈ before, Named rt line.columns)
    (hdeltas : ∀ delta ∈ deltas, Named rt delta.columns) {line : OrderLine} :
    line ∈ applyOrderChangeLines rt before deltas ↔
      (orderState rt before deltas).lookup (lineKey rt line.columns 0) = some line := by
  have hnamed := allNamed_orderState hbefore hdeltas
  constructor
  · intro h
    obtain ⟨entry, hentry, rfl⟩ := List.mem_map.mp h
    obtain ⟨n, hn⟩ := keyed_orderState.keyed entry hentry
    refine lookup_of_mem keyed_orderState.nodup ?_
    rw [lineKey_named (hnamed entry hentry) 0 n, ← hn]
    exact hentry
  · exact fun h => List.mem_map.mpr ⟨_, mem_of_lookup h, rfl⟩

theorem lookup_orderState_key (hbefore : ∀ line ∈ before, Named rt line.columns)
    (hdeltas : ∀ delta ∈ deltas, Named rt delta.columns) {key : String} {line : OrderLine}
    (h : (orderState rt before deltas).lookup key = some line) :
    lineKey rt line.columns 0 = key := by
  have hentry := mem_of_lookup h
  obtain ⟨n, hn⟩ := keyed_orderState.keyed _ hentry
  exact (lineKey_named (allNamed_orderState hbefore hdeltas _ hentry) 0 n).trans hn.symm

/-! ## Net quantities -/

/-- The line of a key after some changes. -/
def HasLine (rt : Runtime) (before deltas : List OrderLine) (key : String) (line : OrderLine) :
    Prop :=
  line ∈ applyOrderChangeLines rt before deltas ∧ lineKey rt line.columns 0 = key

/-- The key was last inserted with a quantity, and the changes since then keep
its line. -/
structure Since (rt : Runtime) (before deltas : List OrderLine) (key : String)
    (quantity : Decimal) (applied : List OrderLine) : Prop where
  inserted : (ofKey rt before key ≠ [] ∧ quantity = baseQuantity (ofKey rt before key) ∧
      ofKey rt deltas key = applied) ∨
    ∃ past insertion, ofKey rt deltas key = past ++ insertion :: applied ∧
      (∀ line, ¬HasLine rt before past key line) ∧ inserts insertion = true ∧
      quantity = quantityOf insertion
  keep : Keep quantity applied

/-- Quantities are sums since the last insertion, a missing line was never
inserted or last taken away, and a change prices its line again. -/
structure NetQuantity (rt : Runtime) (before deltas : List OrderLine) : Prop where
  present : ∀ line ∈ applyOrderChangeLines rt before deltas,
    ∃ quantity applied, Since rt before deltas (lineKey rt line.columns 0) quantity applied ∧
      quantityOf line = changedQuantity quantity applied ∧
      (applied ≠ [] → ∀ price, effectiveUnitPrice line.columns = some price →
        line.lineTotal = some (mul precision (stored price) (quantityOf line)))
  absent : ∀ key, (∀ line, ¬HasLine rt before deltas key line) ↔
    (ofKey rt before key = [] ∧ ∀ delta ∈ ofKey rt deltas key, inserts delta = false) ∨
    ∃ past removal later current, ofKey rt deltas key = past ++ removal :: later ∧
      HasLine rt before past key current ∧ takesAway current removal = true ∧
      ∀ delta ∈ later, inserts delta = false

theorem hasLine_iff (hbefore : ∀ line ∈ before, Named rt line.columns)
    (hdeltas : ∀ delta ∈ deltas, Named rt delta.columns) {key : String} {line : OrderLine} :
    HasLine rt before deltas key line ↔
      (orderState rt before deltas).lookup key = some line := by
  unfold HasLine
  rw [mem_applyOrderChangeLines hbefore hdeltas]
  constructor
  · intro h
    rw [← h.2]
    exact h.1
  · intro h
    have hkey := lookup_orderState_key hbefore hdeltas h
    exact ⟨hkey ▸ h, hkey⟩

theorem not_hasLine_iff (hbefore : ∀ line ∈ before, Named rt line.columns)
    (hdeltas : ∀ delta ∈ deltas, Named rt delta.columns) {key : String} :
    (∀ line, ¬HasLine rt before deltas key line) ↔
      (orderState rt before deltas).lookup key = none := by
  rw [Option.eq_none_iff_forall_ne_some]
  exact forall_congr' fun line => not_congr (hasLine_iff hbefore hdeltas)

/-- Changes of one key, as a part of all changes. -/
theorem lookup_orderState_past (hbefore : ∀ line ∈ before, Named rt line.columns)
    (hdeltas : ∀ delta ∈ deltas, Named rt delta.columns) {key : String}
    {past later : List OrderLine} (hpast : ofKey rt deltas key = past ++ later) :
    (∀ delta ∈ past, Named rt delta.columns) ∧
      (orderState rt before past).lookup key =
        past.foldl stepLine (entryOf id mergeLine (ofKey rt before key)) := by
  have hmem : ∀ delta ∈ past, delta ∈ deltas ∧ lineKey rt delta.columns 0 = key := by
    intro delta hdelta
    have hof : delta ∈ ofKey rt deltas key := by
      rw [hpast]
      exact List.mem_append_left _ hdelta
    obtain ⟨hdelta, hkey⟩ := List.mem_filter.mp hof
    exact ⟨hdelta, of_decide_eq_true hkey⟩
  have hnamed : ∀ delta ∈ past, Named rt delta.columns := fun delta hdelta =>
    hdeltas delta (hmem delta hdelta).1
  have hself : ofKey rt past key = past :=
    List.filter_eq_self.mpr fun delta hdelta => decide_eq_true (hmem delta hdelta).2
  exact ⟨hnamed, by rw [lookup_orderState hbefore hnamed, hself]⟩

theorem baseQuantity_concat {lines : List OrderLine} (h : lines ≠ []) (line : OrderLine) :
    baseQuantity (lines ++ [line]) = add precision (baseQuantity lines) (quantityOf line) := by
  cases lines with
  | nil => exact absurd rfl h
  | cons first later => simp [baseQuantity]

/-- The base line of a key has the sum of the quantities. -/
theorem quantityOf_baseLine {lines : List OrderLine} (hzero : ZeroFree lines) {line : OrderLine}
    (h : entryOf id mergeLine lines = some line) : quantityOf line = baseQuantity lines := by
  induction lines using List.reverseRecOn generalizing line with
  | nil => cases h
  | append_singleton lines last ih =>
    cases lines with
    | nil =>
      obtain rfl := Option.some.inj h
      rfl
    | cons first later =>
      have hpart : ZeroFree (first :: later) :=
        ⟨fun other hother => hzero.1 other (List.mem_append_left _ hother),
          fun taken htaken => hzero.2 taken (htaken.trans (List.prefix_append _ _))⟩
      have hcurrent := ih hpart rfl
      have hne : (quantityOf (later.foldl mergeLine (id first))).coefficient ≠ 0 := by
        rw [hcurrent]
        exact hpart.2 _ (List.prefix_refl _) (List.cons_ne_nil _ _)
      have hlast := hzero.1 last (List.mem_append_right _ (List.mem_singleton_self last))
      have hline : mergeLine (later.foldl mergeLine (id first)) last = line := by
        simpa [entryOf] using h
      rw [← hline, baseQuantity_concat (List.cons_ne_nil _ _), ← hcurrent, ← quantityOr_unit hne,
        ← quantityOr_unit hlast]
      rfl

/-- What the lines of an order say of its changes. -/
theorem applyOrderChangeLines_net (rt : Runtime) (before deltas : List OrderLine)
    (hbefore : ∀ line ∈ before, Named rt line.columns)
    (hdeltas : ∀ delta ∈ deltas, Named rt delta.columns)
    (hzero : ∀ key, ZeroFree (ofKey rt before key)) : NetQuantity rt before deltas where
  present line hline := by
    have hlookup := (mem_applyOrderChangeLines hbefore hdeltas).mp hline
    generalize hkey : lineKey rt line.columns 0 = key at hlookup
    rw [lookup_orderState hbefore hdeltas] at hlookup
    have hnonempty : ∀ first, entryOf id mergeLine (ofKey rt before key) = some first →
        ofKey rt before key ≠ [] := by
      intro first hfirst hnil
      rw [hnil] at hfirst
      cases hfirst
    have hstart : ∀ first ∈ entryOf id mergeLine (ofKey rt before key),
        (quantityOf first).coefficient ≠ 0 := by
      intro first hfirst
      rw [quantityOf_baseLine (hzero key) hfirst]
      exact (hzero key).2 _ (List.prefix_refl _) (hnonempty first hfirst)
    obtain ⟨first, applied, hhistory⟩ := exists_history hstart hlookup
    refine ⟨quantityOf first, applied, ⟨?_, hhistory.keep⟩, hhistory.quantity, hhistory.total⟩
    obtain ⟨hfirst, hchanges⟩ | ⟨past, hchanges, hpast, hinserts⟩ := hhistory.inserted
    · exact Or.inl ⟨hnonempty first hfirst, quantityOf_baseLine (hzero key) hfirst, hchanges⟩
    · obtain ⟨hnamed, hstate⟩ := lookup_orderState_past hbefore hdeltas hchanges
      refine Or.inr ⟨past, first, hchanges, ?_, hinserts, rfl⟩
      rw [not_hasLine_iff hbefore hnamed, hstate]
      exact hpast
  absent key := by
    rw [not_hasLine_iff hbefore hdeltas, lookup_orderState hbefore hdeltas,
      foldl_stepLine_eq_none, Db.LineDiff.entryOf_eq_none]
    refine or_congr_right ?_
    constructor
    · intro h
      obtain ⟨past, removal, later, current, hchanges, hpast, htakes, hlater⟩ := h
      obtain ⟨hnamed, hstate⟩ := lookup_orderState_past hbefore hdeltas hchanges
      exact ⟨past, removal, later, current, hchanges,
        (hasLine_iff hbefore hnamed).mpr (hstate.trans hpast), htakes, hlater⟩
    · intro h
      obtain ⟨past, removal, later, current, hchanges, hline, htakes, hlater⟩ := h
      obtain ⟨hnamed, hstate⟩ := lookup_orderState_past hbefore hdeltas hchanges
      exact ⟨past, removal, later, current, hchanges,
        hstate.symm.trans ((hasLine_iff hbefore hnamed).mp hline), htakes, hlater⟩

theorem zeroFree_ofKey_singleton {line : OrderLine} (h : (quantityOf line).coefficient ≠ 0)
    (key : String) : ZeroFree (ofKey rt [line] key) := by
  have hsub : ofKey rt [line] key = [] ∨ ofKey rt [line] key = [line] :=
    List.sublist_singleton.mp List.filter_sublist
  obtain hnil | hone := hsub
  · rw [hnil]
    exact ⟨fun _ hline => absurd hline List.not_mem_nil,
      fun _ htaken hne => absurd (List.prefix_nil.mp htaken) hne⟩
  · rw [hone]
    refine ⟨fun other hother => by rwa [List.mem_singleton.mp hother], fun taken htaken hne => ?_⟩
    obtain hnil | hall := List.sublist_singleton.mp htaken.sublist
    · exact absurd hnil hne
    · rwa [hall]

/-- One of two pizzas is taken back. -/
theorem applyOrderChangeLines_net_pizzas :
    NetQuantity asciiRuntime [pizzas 20000] [pizzas (-10000)] :=
  applyOrderChangeLines_net asciiRuntime _ _
    (fun line hline => by
      rw [List.mem_singleton.mp hline]
      exact pizzas_named 20000)
    (fun delta hdelta => by
      rw [List.mem_singleton.mp hdelta]
      exact pizzas_named (-10000))
    (zeroFree_ofKey_singleton (by decide))

/-- A line no change touches keeps the total it was printed with. -/
theorem printed_total_kept : ¬∀ (rt : Runtime) (before deltas : List OrderLine),
    (∀ line ∈ before, Named rt line.columns) → (∀ delta ∈ deltas, Named rt delta.columns) →
    ∀ line ∈ applyOrderChangeLines rt before deltas, ∀ price,
      effectiveUnitPrice line.columns = some price →
      ∃ total, line.lineTotal = some total ∧
        equals total (mul precision (stored price) (quantityOf line)) = true := by
  intro h
  have hone : applyOrderChangeLines asciiRuntime [pizzas 10000] [] = [pizzas 10000] := by
    decide +kernel
  obtain ⟨total, htotal, hequal⟩ := h asciiRuntime [pizzas 10000] []
    (fun line hline => by
      rw [List.mem_singleton.mp hline]
      exact pizzas_named 10000)
    (fun _ hdelta => absurd hdelta List.not_mem_nil) (pizzas 10000)
    (by rw [hone]; exact List.mem_singleton_self _) 80000 rfl
  obtain rfl := Option.some.inj htotal
  revert hequal
  decide +kernel

/-! ## Exact sums -/

end RetailPrintGuard.Correlation.OrderChanges

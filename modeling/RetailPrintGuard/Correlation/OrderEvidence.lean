import RetailPrintGuard.Correlation.OrderChains
import RetailPrintGuard.Correlation.Run

/-! # The order evidence of one run

A transaction is attached to an order and adds the events its documents tell
that are not stored. The transactions of a run share no document, so what one
of them finds stored for its documents was stored before the run. -/
namespace RetailPrintGuard.Correlation.OrderEvidence
open RetailPrintGuard.Common.Python RetailPrintGuard.Common.Domain
open RetailPrintGuard.Library RetailPrintGuard.Library.ListOrder RetailPrintGuard.Library.Runs
open RetailPrintGuard.Library.ConstrainedMerge
open RetailPrintGuard.Correlation.Scoring RetailPrintGuard.Correlation.Engine
open RetailPrintGuard.Correlation.CandidateBatch RetailPrintGuard.Correlation.Worker
open RetailPrintGuard.Correlation.Acceptance RetailPrintGuard.Correlation.Loading
open RetailPrintGuard.Correlation.Partition
open RetailPrintGuard.Correlation.Persistence RetailPrintGuard.Correlation.Run
open RetailPrintGuard.Correlation.Orders RetailPrintGuard.Correlation.OrderChains
open RetailPrintGuard.Db.Models

variable {rt : Runtime} {engine : CorrelationEngine} {timezone : Int → Int}

/-! ## Which documents tell the events -/

theorem mem_first {documents : List Versioned} {document : Versioned}
    (h : document ∈ first documents) : document ∈ documents :=
  mem_sorted.mp (List.mem_of_mem_head? h)

theorem mem_last {documents : List Versioned} {document : Versioned}
    (h : document ∈ last documents) : document ∈ documents :=
  mem_sorted.mp (List.mem_of_mem_getLast? h)

/-- A scan that knows the documents only. -/
structure Scans (documents : List Versioned) (scan : PosScan) : Prop where
  comparisons : ∀ comparison ∈ scan.comparisons, comparison.document ∈ documents
  nonPosSources : ∀ document ∈ scan.nonPosSources, document ∈ documents

theorem scans_scanSource {documents : List Versioned} {scan : PosScan} {document : Versioned}
    (h : Scans documents scan) (hd : document ∈ documents) :
    Scans documents (scanSource rt scan document) := by
  unfold scanSource
  dsimp only
  split
  · split
    · exact ⟨h.comparisons, h.nonPosSources⟩
    · exact h
  · split
    · refine ⟨fun comparison hc => ?_, h.nonPosSources⟩
      obtain hc | hc := List.mem_append.mp hc
      · exact h.comparisons comparison hc
      · rw [List.mem_singleton.mp hc]
        exact hd
    · exact h
  · refine ⟨h.comparisons, fun other ho => ?_⟩
    obtain ho | ho := List.mem_append.mp ho
    · exact h.nonPosSources other ho
    · rwa [List.mem_singleton.mp ho]

theorem scans_foldl {documents : List Versioned} {scan : PosScan} {rest : List Versioned}
    (h : Scans documents scan) (hrest : ∀ document ∈ rest, document ∈ documents) :
    Scans documents (rest.foldl (scanSource rt) scan) := by
  induction rest generalizing scan with
  | nil => exact h
  | cons document rest ih =>
    exact ih (scans_scanSource h (hrest document List.mem_cons_self))
      fun other ho => hrest other (List.mem_cons_of_mem _ ho)

theorem mem_sourceComparisons {documents : List Versioned} {comparison : Comparison}
    (h : comparison ∈ sourceComparisons rt documents) : comparison.document ∈ documents := by
  have hscan : Scans documents
      (((sources documents).insertionSort Versioned.Precedes).foldl (scanSource rt) {}) :=
    scans_foldl ⟨fun _ hc => absurd hc List.not_mem_nil, fun _ hd => absurd hd List.not_mem_nil⟩
      fun document hd => (List.mem_filter.mp (mem_sorted.mp hd)).1
  obtain h | h := List.mem_append.mp h
  · exact hscan.comparisons comparison h
  · obtain ⟨pair, hpair, rfl⟩ := List.mem_map.mp h
    exact hscan.nonPosSources _ (List.mem_of_mem_tail (List.of_mem_zip hpair).2)

theorem mem_finalClosures {documents : List Versioned} {document : Versioned}
    (h : document ∈ finalClosures documents) : document ∈ documents := by
  unfold finalClosures at h
  split at h
  · exact (List.mem_filter.mp h).1
  · exact (List.mem_filter.mp h).1

theorem mem_finalComparison {documents : List Versioned} {comparison : Comparison}
    (h : comparison ∈ finalComparison documents) : comparison.document ∈ documents := by
  unfold finalComparison at h
  dsimp only at h
  split at h
  · next final _ hfinal =>
    rw [List.mem_singleton.mp h]
    exact mem_finalClosures (mem_last hfinal)
  · exact absurd h List.not_mem_nil

theorem mem_addUnseen {events kept : List DesiredEvent} {event : DesiredEvent}
    (h : event ∈ events.foldl addUnseen kept) : event ∈ kept ∨ event ∈ events := by
  induction events generalizing kept with
  | nil => exact Or.inl h
  | cons next events ih =>
    obtain h | h := ih h
    · unfold addUnseen at h
      split at h
      · exact Or.inl h
      · obtain h | h := List.mem_append.mp h
        · exact Or.inl h
        · rw [List.mem_singleton.mp h]
          exact Or.inr List.mem_cons_self
    · exact Or.inr (List.mem_cons_of_mem _ h)

theorem mem_changeEvents {documents : List Versioned} {event : DesiredEvent}
    (h : event ∈ changeEvents rt documents) : event.document ∈ documents := by
  have hevent := (mem_addUnseen h).resolve_left List.not_mem_nil
  obtain ⟨comparison, hcomparison, hevent⟩ := List.mem_flatMap.mp hevent
  obtain ⟨change, -, hevent⟩ := List.mem_filterMap.mp hevent
  obtain ⟨eventType, -, rfl⟩ := Option.map_eq_some_iff.mp hevent
  obtain hcomparison | hcomparison := List.mem_append.mp hcomparison
  · exact mem_sourceComparisons hcomparison
  · exact mem_finalComparison hcomparison

/-- Every event is told by a document of the transaction. -/
theorem mem_desiredEvents {evidence : Evidence} {event : DesiredEvent}
    (h : event ∈ desiredEvents rt evidence) : event.document ∈ evidence.documents := by
  rw [desiredEvents, mem_sorted, List.mem_append, List.mem_append, List.mem_append] at h
  obtain ((h | h) | h) | h := h
  · obtain ⟨document, hd, rfl⟩ := List.mem_map.mp h
    have hfirst := mem_first (Option.mem_toList.mp hd)
    exact (List.mem_filter.mp (List.mem_filter.mp hfirst).1).1
  · obtain ⟨document, hd, h⟩ := List.mem_flatMap.mp h
    obtain h | h := List.mem_append.mp h
    · obtain ⟨eventType, -, rfl⟩ := List.mem_map.mp h
      exact hd
    · split at h
      · rw [List.mem_singleton.mp h]
        exact hd
      · exact absurd h List.not_mem_nil
  · exact mem_changeEvents h
  · obtain ⟨document, hd, rfl⟩ := List.mem_map.mp h
    exact mem_finalClosures (mem_last (Option.mem_toList.mp hd))

/-! ## The rows of one transaction -/

/-- The chains after some of the desired events. -/
structure Appended (store : OrderStore) (orderId : UUID) (seen : List DesiredEvent)
    (chains : Growing EventRecord × Growing SnapshotRecord) : Prop where
  events : Grown EventRecord.orderId EventRecord.sequence store.events orderId chains.1
  snapshots : Grown SnapshotRecord.orderId SnapshotRecord.sequence store.snapshots orderId chains.2
  told : ∀ row ∈ chains.1.added, ∃ event ∈ seen, ∃ n, row.record = eventRecord orderId event n
  present : ∀ event ∈ seen, ∃ row ∈ store.events ++ chains.1.added,
    row.record.id = eventId orderId event

variable {store : OrderStore} {orderId : UUID}

theorem Appended.step {seen : List DesiredEvent}
    {chains : Growing EventRecord × Growing SnapshotRecord}
    (h : Appended store orderId seen chains) (event : DesiredEvent) :
    Appended store orderId (seen ++ [event]) (appendDesired store orderId chains event) := by
  unfold appendDesired
  split
  · next hstored =>
    refine ⟨h.events, h.snapshots, fun row hrow => ?_, fun other ho => ?_⟩
    · obtain ⟨told, ht, n, hn⟩ := h.told row hrow
      exact ⟨told, List.mem_append_left _ ht, n, hn⟩
    · obtain ho | ho := List.mem_append.mp ho
      · exact h.present other ho
      · obtain ⟨row, hrow, hid⟩ := List.any_eq_true.mp hstored
        rw [List.mem_singleton.mp ho]
        exact ⟨row, List.mem_append_left _ hrow, beq_iff_eq.mp hid⟩
  · have hadded : (chains.1.append (eventRecord orderId event)).added = chains.1.added ++
        [Row.seal (eventRecord orderId event (chains.1.sequence + 1)) chains.1.hash] := rfl
    refine ⟨h.events.append (fun _ => rfl) (fun _ => rfl), ?_, fun row hrow => ?_,
      fun other ho => ?_⟩
    · split
      · exact h.snapshots
      · exact h.snapshots.append (fun _ => rfl) (fun _ => rfl)
    · rw [hadded] at hrow
      obtain hrow | hrow := List.mem_append.mp hrow
      · obtain ⟨told, ht, n, hn⟩ := h.told row hrow
        exact ⟨told, List.mem_append_left _ ht, n, hn⟩
      · rw [List.mem_singleton.mp hrow]
        exact ⟨event, by simp, _, rfl⟩
    · rw [hadded, ← List.append_assoc]
      obtain ho | ho := List.mem_append.mp ho
      · obtain ⟨row, hrow, hid⟩ := h.present other ho
        exact ⟨row, List.mem_append_left _ hrow, hid⟩
      · rw [List.mem_singleton.mp ho]
        exact ⟨_, List.mem_append_right _ (List.mem_singleton_self _), rfl⟩

theorem Appended.foldl {seen : List DesiredEvent}
    {chains : Growing EventRecord × Growing SnapshotRecord}
    (h : Appended store orderId seen chains) (events : List DesiredEvent) :
    Appended store orderId (seen ++ events) (events.foldl (appendDesired store orderId) chains) := by
  induction events generalizing seen chains with
  | nil => rwa [List.append_nil]
  | cons event events ih =>
    rw [List.append_cons]
    exact ih (h.step event)

/-- The chains of a store. -/
structure Chains (store : OrderStore) : Prop where
  events : Chained EventRecord.orderId EventRecord.sequence store.events
  snapshots : Chained SnapshotRecord.orderId SnapshotRecord.sequence store.snapshots

/-- The rows a transaction adds. -/
structure Adds (rt : Runtime) (store : OrderStore) (orderId : UUID) (evidence : Evidence)
    (rows : List OrderEvent × List OrderSnapshot) : Prop where
  events : Continues EventRecord.orderId EventRecord.sequence store.events orderId rows.1
  snapshots :
    Continues SnapshotRecord.orderId SnapshotRecord.sequence store.snapshots orderId rows.2
  told : ∀ row ∈ rows.1, ∃ event ∈ desiredEvents rt evidence, ∃ n,
    row.record = eventRecord orderId event n
  present : ∀ event ∈ desiredEvents rt evidence, ∃ row ∈ store.events ++ rows.1,
    row.record.id = eventId orderId event

theorem adds_appendOrderEvidence {session : Session} (h : Chains session.flushed)
    (orderId : UUID) (evidence : Evidence) :
    Adds rt session.flushed orderId evidence (appendOrderEvidence rt session orderId evidence) := by
  have hstart : Appended session.flushed orderId []
      (.start EventRecord.sequence (session.flushed.eventsOf orderId),
        .start SnapshotRecord.sequence (session.flushed.snapshotsOf orderId)) := by
    refine ⟨grown_start h.events orderId, grown_start h.snapshots orderId, fun row hrow => ?_,
      fun _ hevent => absurd hevent List.not_mem_nil⟩
    rw [added_start] at hrow
    exact absurd hrow List.not_mem_nil
  have hall := hstart.foldl (desiredEvents rt evidence)
  exact ⟨hall.events.continues, hall.snapshots.continues, hall.told, hall.present⟩

/-- A transaction whose events are all stored adds nothing. -/
theorem appendOrderEvidence_stored {session : Session} {evidence : Evidence}
    (h : ∀ event ∈ desiredEvents rt evidence, ∃ row ∈ session.flushed.events,
      row.record.id = eventId orderId event) :
    appendOrderEvidence rt session orderId evidence = ([], []) := by
  have hskip : ∀ (events : List DesiredEvent)
      (chains : Growing EventRecord × Growing SnapshotRecord),
      (∀ event ∈ events, ∃ row ∈ session.flushed.events,
        row.record.id = eventId orderId event) →
      events.foldl (appendDesired session.flushed orderId) chains = chains := by
    intro events
    induction events with
    | nil => exact fun _ _ => rfl
    | cons event events ih =>
      intro chains hstored
      have hany : session.flushed.events.any
          (fun row => row.record.id == eventId orderId event) = true := by
        obtain ⟨row, hrow, hid⟩ := hstored event List.mem_cons_self
        exact List.any_eq_true.mpr ⟨row, hrow, beq_iff_eq.mpr hid⟩
      rw [List.foldl_cons, appendDesired, if_pos hany]
      exact ih chains fun other ho => hstored other (List.mem_cons_of_mem _ ho)
  simp only [appendOrderEvidence, hskip _ _ h, added_start]

/-! ## Sessions -/

/-- The flushed chains hold, and what waits continues them. -/
structure Sound (session : Session) : Prop where
  chains : Chains session.flushed
  events : Waiting EventRecord.orderId EventRecord.sequence session.flushed.events session.newEvents
  snapshots : Waiting SnapshotRecord.orderId SnapshotRecord.sequence session.flushed.snapshots
    session.newSnapshots

/-- No order goes. -/
def Keeps (before after : List Order) : Prop := ∀ order ∈ before, ∃ kept ∈ after, kept.id = order.id

theorem Keeps.refl (orders : List Order) : Keeps orders orders := fun order h => ⟨order, h, rfl⟩

theorem Keeps.trans {a b c : List Order} (h : Keeps a b) (k : Keeps b c) : Keeps a c := by
  intro order ho
  obtain ⟨kept, hkept, hid⟩ := h order ho
  obtain ⟨last, hlast, hlid⟩ := k kept hkept
  exact ⟨last, hlast, hlid.trans hid⟩

/-- Flushing, renaming and creating orders: no row is added or lost. -/
structure Follows (session after : Session) : Prop where
  sound : Sound session → Sound after
  events : after.written.events = session.written.events
  snapshots : after.written.snapshots = session.written.snapshots
  grows : session.flushed.events <+: after.flushed.events
  growsSnapshots : session.flushed.snapshots <+: after.flushed.snapshots
  orders : Keeps session.flushed.orders after.flushed.orders

theorem Follows.refl (session : Session) : Follows session session :=
  ⟨id, rfl, rfl, List.prefix_rfl, List.prefix_rfl, Keeps.refl _⟩

variable {session after : Session}

theorem flush_eq_some :
    session.flush rt = some after ↔
      session.written.Unique rt ∧ after = { flushed := session.written } := by
  unfold Session.flush
  split
  · next h => simp [h, eq_comm]
  · next h => simp [h]

theorem keeps_written (session : Session) :
    Keeps session.flushed.orders session.written.orders :=
  fun _ h => ⟨_, List.mem_map_of_mem h, rfl⟩

theorem follows_flush (h : session.flush rt = some after) : Follows session after := by
  obtain ⟨hunique, rfl⟩ := flush_eq_some.mp h
  refine ⟨fun hs => ⟨⟨?_, ?_⟩, waiting_nil, waiting_nil⟩, List.append_nil _, List.append_nil _,
    List.prefix_append _ _, List.prefix_append _ _, keeps_written session⟩
  · exact hs.chains.events.flush hs.events hunique.eventSequences
  · exact hs.chains.snapshots.flush hs.snapshots hunique.snapshotSequences

theorem follows_create {deviceId : UUID} {businessDate : Int} {orderCode : String}
    (h : createOrder rt session deviceId businessDate orderCode = some (orderId, after)) :
    Follows session after ∧ ∃ order ∈ after.flushed.orders, order.id = orderId := by
  unfold createOrder at h
  obtain ⟨flushed, hflush, heq⟩ := Option.map_eq_some_iff.mp h
  obtain ⟨rfl, rfl⟩ := Prod.mk.inj heq
  have hadded := follows_flush hflush
  obtain ⟨-, rfl⟩ := flush_eq_some.mp hflush
  refine ⟨⟨fun hs => hadded.sound ⟨⟨hs.chains.events, hs.chains.snapshots⟩,
    hs.events, hs.snapshots⟩, hadded.events,
    hadded.snapshots, hadded.grows, hadded.growsSnapshots, ?_⟩, ?_⟩
  · exact (show Keeps session.flushed.orders _ from fun order ho =>
      ⟨order, List.mem_append_left _ ho, rfl⟩).trans hadded.orders
  · exact ⟨_, List.mem_map_of_mem (List.mem_append_right _ (List.mem_singleton_self _)), rfl⟩

theorem follows_rename (session : Session) (order : Order) (deviceId : UUID) (businessDate : Int)
    (orderCode : String) :
    Follows session (renameOrder rt session order deviceId businessDate orderCode) ∧
      (renameOrder rt session order deviceId businessDate orderCode).flushed =
        session.flushed := by
  unfold renameOrder
  dsimp only
  split
  · exact ⟨⟨fun h => ⟨h.chains, h.events, h.snapshots⟩, rfl, rfl, List.prefix_rfl,
      List.prefix_rfl, Keeps.refl _⟩, rfl⟩
  · exact ⟨Follows.refl _, rfl⟩

theorem mem_anyRow {α : Type} {choice : Nat} {rows : List α} {row : α}
    (h : anyRow choice rows = some row) : row ∈ rows := List.mem_of_getElem? h

theorem anyRow_of_ne_nil {α : Type} (choice : Nat) {rows : List α} (h : rows ≠ []) :
    ∃ row ∈ rows, anyRow choice rows = some row := by
  have hlt := Nat.mod_lt choice (List.length_pos_of_ne_nil h)
  exact ⟨rows[choice % rows.length], List.getElem_mem hlt, List.getElem?_eq_getElem hlt⟩

/-- Whatever order a transaction is attached to, it is stored. -/
theorem follows_upsert {documents : List Versioned} {deviceOf : UUID → Option UUID} {choice : Nat}
    (h : upsertOrder rt timezone session documents deviceOf choice = some (orderId, after)) :
    Follows session after ∧ ∃ order ∈ after.flushed.orders, order.id = orderId := by
  unfold upsertOrder at h
  dsimp only at h
  split at h
  · cases h
  · next primary _ =>
    split at h
    · cases h
    · next deviceId _ =>
      split at h
      · exact follows_create h
      · next order horder =>
        obtain ⟨rfl, rfl⟩ := Prod.mk.inj (Option.some.inj h)
        obtain ⟨hfollows, hflushed⟩ := @follows_rename rt session order deviceId
          (businessDateOf timezone primary.value) (orderCodeOf documents primary)
        refine ⟨hfollows, order, ?_, rfl⟩
        rw [hflushed]
        obtain horder | ⟨-, horder⟩ := Option.or_eq_some_iff.mp horder
        · exact (List.mem_filter.mp (mem_anyRow horder)).1
        · exact List.mem_of_find?_eq_some horder

/-- A transaction whose documents have events in one order only is attached to
it, whichever row the database returns. -/
theorem upsert_of_linked {documents : List Versioned} {deviceOf : UUID → Option UUID}
    {choice : Nat}
    (h : upsertOrder rt timezone session documents deviceOf choice = some (orderId, after))
    {linked : UUID}
    (hsome : ∃ order ∈ session.flushed.linkedOrders (documents.map (·.value.id)), order.id = linked)
    (hall : ∀ order ∈ session.flushed.linkedOrders (documents.map (·.value.id)),
      order.id = linked) : orderId = linked ∧ after.flushed = session.flushed := by
  have hne : session.flushed.linkedOrders (documents.map (·.value.id)) ≠ [] := by
    obtain ⟨order, horder, -⟩ := hsome
    exact List.ne_nil_of_mem horder
  obtain ⟨order, horder, hany⟩ := anyRow_of_ne_nil choice hne
  unfold upsertOrder at h
  dsimp only at h
  split at h
  · cases h
  · split at h
    · cases h
    · rw [hany, Option.some_or] at h
      obtain ⟨rfl, rfl⟩ := Prod.mk.inj (Option.some.inj h)
      exact ⟨hall order horder, (@follows_rename rt _ _ _ _ _).2⟩

/-! ## The transactions of a run -/

/-- The evidence of documents, with the totals the engine computes for them. -/
def evidenceOn (rt : Runtime) (documents : List Versioned) : Evidence :=
  let values := documents.map Versioned.value
  { documents
    fiscalTotal := totalOf (validFiscalDocuments values)
    observedFinalTotal := totalOf (economicClosures values (prebillOf rt values)) }

variable {db : Database} {limit : Nat}

theorem map_evidenceOf {loaded : List LoadedDocument} {t : CorrelatedTransaction}
    (h : Covered loaded t) : (evidenceOf loaded t).documents.map Versioned.value = t.documents := by
  have hall : ∀ documents : List NormalizedDocument,
      (∀ document ∈ documents, ∃ item ∈ loaded, item.value.id = document.id) →
      ((documents.filterMap fun document =>
        (loaded.find? fun item => item.value.id == document.id).map fun item =>
          (⟨document, item.versionId⟩ : Versioned)).map Versioned.value) = documents := by
    intro documents
    induction documents with
    | nil => exact fun _ => rfl
    | cons document documents ih =>
      intro hdocuments
      obtain ⟨item, hitem, hid⟩ := hdocuments document List.mem_cons_self
      obtain ⟨found, hfound⟩ := Option.isSome_iff_exists.mp
        (List.find?_isSome.mpr ⟨item, hitem, beq_iff_eq.mpr hid⟩ :
          (loaded.find? fun item => item.value.id == document.id).isSome)
      rw [List.filterMap_cons, hfound, Option.map_some, List.map_cons,
        ih fun other ho => hdocuments other (List.mem_cons_of_mem _ ho)]
  exact hall t.documents h

/-- The totals of a transaction are those of its documents. -/
theorem evidenceOf_transaction {t : CorrelatedTransaction}
    (h : t ∈ (prepare rt engine db limit).transactions rt engine) :
    evidenceOf (prepare rt engine db limit).sales t =
      evidenceOn rt (evidenceOf (prepare rt engine db limit).sales t).documents := by
  have hvalues := map_evidenceOf (covered_transaction h)
  obtain ⟨document, -, ht⟩ := mem_correlatePairs.mp h
  have hfiscal : t.fiscalTotal = totalOf (validFiscalDocuments t.documents) := by
    rw [ht]
    rfl
  have hobserved : t.observedFinalTotal =
      totalOf (economicClosures t.documents (prebillOf rt t.documents)) := by
    rw [ht]
    rfl
  simp only [evidenceOn, hvalues]
  rw [← hfiscal, ← hobserved]
  rfl

/-- The documents are stored in the versions they were loaded from. -/
theorem version_of_evidence {t : CorrelatedTransaction} {document : Versioned}
    (h : document ∈ (evidenceOf (prepare rt engine db limit).sales t).documents) :
    ∃ version ∈ db.versions, version.id = document.versionId ∧
      version.documentId = document.value.id := by
  obtain ⟨value, -, hfound⟩ := List.mem_filterMap.mp h
  obtain ⟨item, hitem, rfl⟩ := Option.map_eq_some_iff.mp hfound
  have hid : item.value.id = value.id := by simpa using List.find?_some hitem
  obtain ⟨row, hrow, rfl⟩ :=
    row_of_mem_prepare (List.mem_filter.mp (List.mem_of_find?_eq_some hitem)).1
  obtain ⟨hversion, hdocument⟩ := version_of_row hrow
  exact ⟨row.version, hversion, rfl, hdocument.trans hid⟩

theorem ids_of_evidence {loaded : List LoadedDocument} {t : CorrelatedTransaction}
    {document : Versioned} (h : document ∈ (evidenceOf loaded t).documents) :
    document.value.id ∈ t.ids := by
  obtain ⟨value, hvalue, hfound⟩ := List.mem_filterMap.mp h
  obtain ⟨item, -, rfl⟩ := Option.map_eq_some_iff.mp hfound
  exact List.mem_map_of_mem hvalue

theorem nodup_groups (partition : Components UUID) (ordered : List NormalizedDocument)
    {build : List NormalizedDocument → CorrelatedTransaction}
    (hbuild : ∀ group, (build group).documents = sortDocuments group) :
    ((groups partition ordered).map build).Nodup := by
  rw [groups, List.map_map]
  refine List.Nodup.map_on (fun a ha b hb hab => ?_)
    ((List.perm_insertionSort _ _).nodup_iff.mpr (List.nodup_dedup _))
  obtain ⟨document, hd, rfl⟩ := List.mem_map.mp (List.mem_dedup.mp (mem_sorted.mp ha))
  have hdocuments := congrArg CorrelatedTransaction.documents hab
  simp only [Function.comp_apply, hbuild] at hdocuments
  have hmem : document ∈ sortDocuments (ordered.filter fun other =>
      partition.find other.id == partition.find document.id) :=
    mem_sortDocuments.mpr (List.mem_filter.mpr ⟨hd, beq_iff_eq.mpr rfl⟩)
  rw [hdocuments, mem_sortDocuments] at hmem
  exact beq_iff_eq.mp (List.mem_filter.mp hmem).2

/-- No transaction comes twice. -/
theorem nodup_transactions : ((prepare rt engine db limit).transactions rt engine).Nodup := by
  rw [Analysis.transactions, correlateCandidates, correlatePairs,
    (List.perm_insertionSort _ _).nodup_iff]
  exact nodup_groups _ _ fun _ => rfl

theorem nodup_persisted : ((prepare rt engine db limit).persisted rt engine).Nodup :=
  nodup_transactions.filter _

/-- Different transactions process different documents. -/
theorem evidence_injective {t u : CorrelatedTransaction}
    (ht : t ∈ (prepare rt engine db limit).persisted rt engine)
    (hu : u ∈ (prepare rt engine db limit).persisted rt engine)
    (h : (evidenceOf (prepare rt engine db limit).sales t).documents =
      (evidenceOf (prepare rt engine db limit).sales u).documents) : t = u := by
  obtain ⟨ht, id, hid, -⟩ := mem_persisted.mp ht
  obtain ⟨hu, -⟩ := mem_persisted.mp hu
  have hdocuments := congrArg (List.map Versioned.value) h
  rw [map_evidenceOf (covered_transaction ht), map_evidenceOf (covered_transaction hu)] at hdocuments
  refine disjoint_transactions t ht u hu id hid ?_
  rw [CorrelatedTransaction.ids, ← hdocuments]
  exact hid

/-! ## One transaction of a run -/

/-- Every event the documents tell is stored under one order. -/
def Recorded (rt : Runtime) (events : List OrderEvent) (documents : List Versioned) : Prop :=
  ∃ orderId, ∀ event ∈ desiredEvents rt (evidenceOn rt documents), ∃ row ∈ events,
    row.record.id = eventId orderId event

/-- An event belongs to a stored order, which its id names with a version of
its document. -/
structure Owned (db : Database) (orders : List Order) (row : OrderEvent) : Prop where
  order : ∃ order ∈ orders, order.id = row.record.orderId
  named : row.record.id.orderId = row.record.orderId
  version : ∃ version ∈ db.versions, version.id = row.record.id.versionId ∧
    version.documentId = row.record.sourceDocumentId

/-- The stored events of the documents belong to one order. -/
def OneOrder (store : OrderStore) (documentIds : List UUID) : Prop :=
  ∀ a ∈ store.events, ∀ b ∈ store.events, a.record.sourceDocumentId ∈ documentIds →
    b.record.sourceDocumentId ∈ documentIds → a.record.orderId = b.record.orderId

instance (store : OrderStore) (documentIds : List UUID) : Decidable (OneOrder store documentIds) :=
  inferInstanceAs (Decidable (∀ a ∈ store.events, _))

theorem Recorded.mono {events more : List OrderEvent} {documents : List Versioned}
    (h : Recorded rt events documents) (hmore : ∀ row ∈ events, row ∈ more) :
    Recorded rt more documents := by
  obtain ⟨orderId, hall⟩ := h
  refine ⟨orderId, fun event hevent => ?_⟩
  obtain ⟨row, hrow, hid⟩ := hall event hevent
  exact ⟨row, hmore row hrow, hid⟩

theorem Owned.mono {orders more : List Order} {row : OrderEvent} (h : Owned db orders row)
    (hmore : Keeps orders more) : Owned db more row := by
  obtain ⟨order, horder, hid⟩ := h.order
  obtain ⟨kept, hkept, hkid⟩ := hmore order horder
  exact ⟨⟨kept, hkept, hkid.trans hid⟩, h.named, h.version⟩

/-- A run after some of its transactions. -/
structure Running (rt : Runtime) (db : Database) (store : OrderStore) (loaded : List LoadedDocument)
    (done : List CorrelatedTransaction) (run : RunState) : Prop where
  sound : Sound run.session
  grows : store.events <+: run.session.flushed.events
  growsSnapshots : store.snapshots <+: run.session.flushed.snapshots
  orders : Keeps store.orders run.session.flushed.orders
  rows : ∀ row ∈ run.session.written.events, Owned db run.session.flushed.orders row
  fresh : ∀ row ∈ run.session.written.events,
    row ∈ store.events ∨ ∃ t ∈ done, row.record.sourceDocumentId ∈ t.ids
  documents : run.processed.map Processed.documents =
    done.map fun t => (evidenceOf loaded t).documents
  recorded : ∀ p ∈ run.processed, Recorded rt run.session.written.events p.documents

variable {loaded : List LoadedDocument} {done : List CorrelatedTransaction} {run run' : RunState}

theorem Running.follows (h : Running rt db store loaded done run)
    (hf : Follows run.session after) :
    Running rt db store loaded done { run with session := after } := by
  refine ⟨hf.sound h.sound, h.grows.trans hf.grows, h.growsSnapshots.trans hf.growsSnapshots,
    h.orders.trans hf.orders, ?_, ?_, h.documents, ?_⟩
  · intro row hrow
    rw [hf.events] at hrow
    exact (h.rows row hrow).mono hf.orders
  · intro row hrow
    rw [hf.events] at hrow
    exact h.fresh row hrow
  · intro p hp
    rw [hf.events]
    exact h.recorded p hp

/-- A transaction is attached to an order after a flush or none, and its
evidence appended. -/
theorem processTransaction_eq_some {item : CorrelatedTransaction × Choice}
    (h : processTransaction rt engine timezone loaded run item = some run') :
    ∃ session orderId attached deviceOf, Follows run.session session ∧
      upsertOrder rt timezone session (evidenceOf loaded item.1).documents deviceOf
        item.2.linkedOrder = some (orderId, attached) ∧
      run' = appendEvidence rt attached orderId (evidenceOf loaded item.1)
        (persistCorrelation rt engine run.db item.1 loaded) run.processed := by
  unfold processTransaction at h
  dsimp only at h
  split at h
  · cases h
  · next orderId attached hattached =>
    obtain ⟨session, hsession, hupsert⟩ := Option.bind_eq_some_iff.mp hattached
    refine ⟨session, orderId, attached, _, ?_, hupsert, (Option.some.inj h).symm⟩
    split at hsession
    · exact follows_flush hsession
    · rw [← Option.some.inj hsession]
      exact Follows.refl _

theorem processed_appendEvidence (session : Session) (orderId : UUID) (evidence : Evidence)
    (db : Database) (processed : List Processed) :
    (appendEvidence rt session orderId evidence db processed).processed = processed ++
      [⟨evidence.documents, (appendOrderEvidence rt session orderId evidence).1.length,
        (appendOrderEvidence rt session orderId evidence).2.length⟩] := rfl

theorem Running.append {t : CorrelatedTransaction} {session : Session} {processed : List Processed}
    {before after : Database}
    (h : Running rt db store loaded done ⟨before, session, processed⟩)
    (horder : ∃ order ∈ session.flushed.orders, order.id = orderId)
    (hevidence : evidenceOf loaded t = evidenceOn rt (evidenceOf loaded t).documents)
    (hversion : ∀ document ∈ (evidenceOf loaded t).documents, ∃ version ∈ db.versions,
      version.id = document.versionId ∧ version.documentId = document.value.id) :
    Running rt db store loaded (done ++ [t])
      (appendEvidence rt session orderId (evidenceOf loaded t) after processed) := by
  have hadds := @adds_appendOrderEvidence rt _ h.sound.chains orderId (evidenceOf loaded t)
  generalize hrows : appendOrderEvidence rt session orderId (evidenceOf loaded t) = rows at hadds
  obtain ⟨events, snapshots⟩ := rows
  have hwritten : ∀ row, row ∈ (session.flushed.events ++ (session.newEvents ++ events)) ↔
      row ∈ session.written.events ∨ row ∈ events := by
    intro row
    rw [← List.append_assoc, List.mem_append]
    rfl
  simp only [appendEvidence, hrows]
  refine ⟨⟨⟨h.sound.chains.events, h.sound.chains.snapshots⟩,
    h.sound.events.append hadds.events, h.sound.snapshots.append hadds.snapshots⟩, h.grows,
    h.growsSnapshots, h.orders, ?_, ?_, ?_, ?_⟩
  · intro row hrow
    obtain hrow | hrow := (hwritten row).mp hrow
    · exact h.rows row hrow
    · obtain ⟨event, hevent, n, hrecord⟩ := hadds.told row hrow
      rw [show row = ⟨row.record, row.previousRecordHash, row.recordHash⟩ from rfl, hrecord]
      exact ⟨horder, rfl, hversion _ (mem_desiredEvents hevent)⟩
  · intro row hrow
    obtain hrow | hrow := (hwritten row).mp hrow
    · refine (h.fresh row hrow).imp_right fun hdone => ?_
      obtain ⟨u, hu, hid⟩ := hdone
      exact ⟨u, List.mem_append_left _ hu, hid⟩
    · obtain ⟨event, hevent, n, hrecord⟩ := hadds.told row hrow
      refine Or.inr ⟨t, List.mem_append_right _ (List.mem_singleton_self _), ?_⟩
      rw [hrecord]
      exact ids_of_evidence (mem_desiredEvents hevent)
  · rw [List.map_append, List.map_append, h.documents]
    rfl
  · intro p hp
    obtain hp | hp := List.mem_append.mp hp
    · exact (h.recorded p hp).mono fun row hrow => (hwritten row).mpr (Or.inl hrow)
    · rw [List.mem_singleton.mp hp]
      refine ⟨orderId, fun event hevent => ?_⟩
      rw [← hevidence] at hevent
      obtain ⟨row, hrow, hid⟩ := hadds.present event hevent
      refine ⟨row, (hwritten row).mpr ?_, hid⟩
      obtain hrow | hrow := List.mem_append.mp hrow
      · exact Or.inl (List.mem_append_left _ hrow)
      · exact Or.inr hrow

/-- **A transaction that is recorded adds nothing**, where its documents have
events in one order only. -/
theorem Running.idle {t : CorrelatedTransaction} {session attached : Session}
    {deviceOf : UUID → Option UUID} {choice : Nat}
    (h : Running rt db store loaded done ⟨run.db, session, run.processed⟩)
    (hupsert : upsertOrder rt timezone session (evidenceOf loaded t).documents deviceOf choice =
      some (orderId, attached))
    (hrecorded : Recorded rt store.events (evidenceOf loaded t).documents)
    (hone : OneOrder store t.ids) (hdone : ∀ u ∈ done, ∀ id ∈ u.ids, id ∉ t.ids)
    (hevidence : evidenceOf loaded t = evidenceOn rt (evidenceOf loaded t).documents)
    (hversion : ∀ document ∈ (evidenceOf loaded t).documents, ∃ version ∈ db.versions,
      version.id = document.versionId ∧ version.documentId = document.value.id) :
    appendOrderEvidence rt attached orderId (evidenceOf loaded t) = ([], []) := by
  obtain ⟨linked, hall⟩ := hrecorded
  rw [← hevidence] at hall
  -- what is recorded stands under the order, and is told by the same document
  have hstored : ∀ event ∈ desiredEvents rt (evidenceOf loaded t), ∃ row ∈ store.events,
      row.record.id = eventId linked event ∧ row ∈ session.flushed.events ∧
        row.record.orderId = linked ∧ row.record.sourceDocumentId = event.document.value.id ∧
        ∃ order ∈ session.flushed.orders, order.id = linked := by
    intro event hevent
    obtain ⟨row, hrow, hid⟩ := hall event hevent
    have hflushed := h.grows.subset hrow
    have howned := h.rows row (List.mem_append_left _ hflushed)
    have horder : row.record.orderId = linked := by rw [← howned.named, hid]; rfl
    obtain ⟨version, hv, hvid, hvdocument⟩ := howned.version
    obtain ⟨other, ho, hoid, hodocument⟩ := hversion _ (mem_desiredEvents hevent)
    have hsame : version.id = other.id := by rw [hvid, hid, hoid]; rfl
    rw [Table.eq_of_key hv ho hsame] at hvdocument
    exact ⟨row, hrow, hid, hflushed, horder, hvdocument.symm.trans hodocument,
      horder ▸ howned.order⟩
  cases hevents : desiredEvents rt (evidenceOf loaded t) with
  | nil =>
    refine appendOrderEvidence_stored fun event hevent => ?_
    rw [hevents] at hevent
    exact absurd hevent List.not_mem_nil
  | cons event events =>
    have hevent : event ∈ desiredEvents rt (evidenceOf loaded t) := by
      rw [hevents]
      exact List.mem_cons_self
    obtain ⟨row, hrow, -, hflushed, horder, hsource, order, hknown, hid⟩ := hstored event hevent
    have hids : ∀ id ∈ (evidenceOf loaded t).documents.map (·.value.id), id ∈ t.ids := by
      intro id hmem
      obtain ⟨document, hdocument, rfl⟩ := List.mem_map.mp hmem
      exact ids_of_evidence hdocument
    have hmem := List.mem_map_of_mem (f := (·.value.id)) (mem_desiredEvents hevent)
    have hlinked := upsert_of_linked hupsert
      ⟨order, List.mem_filter.mpr ⟨hknown, List.any_eq_true.mpr ⟨row,
        List.mem_filter.mpr ⟨hflushed, beq_iff_eq.mpr (horder.trans hid.symm)⟩,
        List.contains_iff_mem.mpr (hsource ▸ hmem)⟩⟩, hid⟩
      (by
        intro other hother
        obtain ⟨told, htold, hcontains⟩ := List.any_eq_true.mp (List.mem_filter.mp hother).2
        obtain ⟨htold, howner⟩ := List.mem_filter.mp htold
        have htid := hids _ (List.contains_iff_mem.mp hcontains)
        obtain hold | ⟨u, hu, huid⟩ := h.fresh told (List.mem_append_left _ htold)
        · rw [← beq_iff_eq.mp howner, ← horder]
          exact hone told hold row hrow htid (hsource ▸ hids _ hmem)
        · exact absurd htid (hdone u hu _ huid))
    refine appendOrderEvidence_stored fun other ho => ?_
    obtain ⟨stored, -, hid, hflushed, -⟩ := hstored other ho
    rw [hlinked.1, hlinked.2]
    exact ⟨stored, hflushed, hid⟩

/-! ## All transactions of a run -/

/-- What is processed again adds nothing. -/
def Idle (log processed : List Processed) : Prop :=
  ∀ p ∈ processed, ∀ q ∈ log, p.documents = q.documents → p.events = 0 ∧ p.snapshots = 0

theorem running_foldlM {items : List (CorrelatedTransaction × Choice)} {log : List Processed}
    (hrun : items.foldlM (processTransaction rt engine timezone
      (prepare rt engine db limit).sales) run = some run')
    (h : Running rt db store (prepare rt engine db limit).sales done run)
    (hitems : ∀ t ∈ done ++ items.map Prod.fst,
      t ∈ (prepare rt engine db limit).persisted rt engine)
    (hnodup : (done ++ items.map Prod.fst).Nodup) :
    Running rt db store (prepare rt engine db limit).sales (done ++ items.map Prod.fst) run' ∧
      ((∀ t ∈ items.map Prod.fst, OneOrder store t.ids) →
        (∀ q ∈ log, Recorded rt store.events q.documents) → Idle log run.processed →
        Idle log run'.processed) := by
  induction items generalizing done run with
  | nil =>
    obtain rfl : run = run' := Option.some.inj hrun
    rw [List.map_nil, List.append_nil]
    exact ⟨h, fun _ _ hidle => hidle⟩
  | cons item items ih =>
    rw [List.foldlM_cons] at hrun
    obtain ⟨next, hnext, hrest⟩ := Option.bind_eq_some_iff.mp hrun
    rw [List.map_cons, List.append_cons] at hitems hnodup ⊢
    obtain ⟨session, orderId, attached, deviceOf, hf, hupsert, rfl⟩ :=
      processTransaction_eq_some hnext
    have hpersisted := hitems item.1 (by simp)
    have ht := (mem_persisted.mp hpersisted).1
    have hevidence := evidenceOf_transaction ht
    have hsession := h.follows hf
    obtain ⟨hattached, horder⟩ := follows_upsert hupsert
    obtain ⟨hall, hidle⟩ := ih hrest ((hsession.follows hattached).append horder hevidence
      fun _ hdocument => version_of_evidence hdocument) hitems hnodup
    refine ⟨hall, fun hone hlog hprior => hidle
      (fun u hu => hone u (List.mem_cons_of_mem _ hu)) hlog fun p hp q hq heq => ?_⟩
    rw [processed_appendEvidence] at hp
    obtain hp | hp := List.mem_append.mp hp
    · exact hprior p hp q hq heq
    · obtain rfl := List.mem_singleton.mp hp
      have hrecorded := hlog q hq
      rw [← heq] at hrecorded
      have hnone := hsession.idle hupsert hrecorded
        (hone item.1 List.mem_cons_self) (fun u hu id hid hid' => ?_) hevidence
        fun _ hdocument => version_of_evidence hdocument
      · rw [hnone]
        exact ⟨rfl, rfl⟩
      · -- two transactions of a run share no document
        have hmem : u ∈ (prepare rt engine db limit).transactions rt engine :=
          (mem_persisted.mp (hitems u (by simp [hu]))).1
        rw [disjoint_transactions u hmem item.1 ht id hid hid'] at hu
        rw [List.append_assoc, List.nodup_append] at hnodup
        exact hnodup.2.2 _ hu _ (by simp) rfl

/-- The database of a run is that of the correlation worker. -/
theorem db_foldlM {items : List (CorrelatedTransaction × Choice)}
    (h : items.foldlM (processTransaction rt engine timezone loaded) run = some run') :
    run'.db = (items.map Prod.fst).foldl
      (fun db transaction => persistCorrelation rt engine db transaction loaded) run.db := by
  induction items generalizing run with
  | nil => rw [← Option.some.inj h]; rfl
  | cons item items ih =>
    rw [List.foldlM_cons] at h
    obtain ⟨next, hnext, hrest⟩ := Option.bind_eq_some_iff.mp h
    obtain ⟨session, orderId, attached, deviceOf, -, -, rfl⟩ := processTransaction_eq_some hnext
    exact ih hrest

/-- What a committed run did. -/
structure Committed (rt : Runtime) (engine : CorrelationEngine) (db : Database)
    (store : OrderStore) (limit : Nat) (db' : Database) (store' : OrderStore)
    (processed : List Processed) : Prop where
  database : db' = runOnce rt engine db limit
  chains : Chains store'
  grows : store.events <+: store'.events
  growsSnapshots : store.snapshots <+: store'.snapshots
  rows : ∀ row ∈ store'.events, Owned db store'.orders row
  orders : Keeps store.orders store'.orders
  recorded : ∀ p ∈ processed, Recorded rt store'.events p.documents
  different : processed.Pairwise fun p q => p.documents ≠ q.documents
  idle : ∀ log, (∀ q ∈ log, Recorded rt store.events q.documents) →
    (∀ t ∈ (prepare rt engine db limit).persisted rt engine, OneOrder store t.ids) →
    Idle log processed

theorem map_fst_zipIdx (transactions : List CorrelatedTransaction) (choices : Nat → Choice) :
    (transactions.zipIdx.map fun item => (item.1, choices item.2)).map Prod.fst =
      transactions := by
  rw [List.map_map]
  exact List.zipIdx_map_fst _ _

theorem committed_runOrders {choices : Nat → Choice} {db' : Database} {store' : OrderStore}
    {processed : List Processed} (hchains : Chains store)
    (howned : ∀ row ∈ store.events, Owned db store.orders row)
    (h : runOrders rt engine timezone db store limit choices = some (db', store', processed)) :
    Committed rt engine db store limit db' store' processed := by
  unfold runOrders at h
  dsimp only at h
  split at h
  · cases h
  · next run hrun =>
    obtain ⟨session, hflush, heq⟩ := Option.map_eq_some_iff.mp h
    obtain ⟨rfl, rfl, rfl⟩ : run.db = db' ∧ session.flushed = store' ∧
        run.processed = processed := by simpa using heq
    have hdb := db_foldlM hrun
    rw [map_fst_zipIdx] at hdb
    have hstart : Running rt db store (prepare rt engine db limit).sales []
        { db := (prepare rt engine db limit).database, session := { flushed := store } } := by
      refine ⟨⟨hchains, waiting_nil, waiting_nil⟩, List.prefix_rfl, List.prefix_rfl,
        Keeps.refl _, fun row hrow => ?_, fun row hrow => Or.inl ?_, rfl,
        fun p hp => absurd hp List.not_mem_nil⟩
      · exact howned row ((List.append_nil store.events) ▸ hrow)
      · exact (List.append_nil store.events) ▸ hrow
    have hall := @running_foldlM _ _ _ _ _ _ _ _ _ _ [] hrun hstart
      (by rw [List.nil_append, map_fst_zipIdx]; exact fun t ht => ht)
      (by rw [List.nil_append, map_fst_zipIdx]; exact nodup_persisted)
    rw [List.nil_append, map_fst_zipIdx] at hall
    have hfinal := hall.1.follows (follows_flush hflush)
    have hwritten : session.written.events = session.flushed.events := by
      obtain ⟨-, rfl⟩ := flush_eq_some.mp hflush
      exact List.append_nil _
    refine ⟨hdb, hfinal.sound.chains, hfinal.grows, hfinal.growsSnapshots, ?_, hfinal.orders,
      ?_, ?_, fun log hlog hone => ?_⟩
    · exact fun row hrow => hfinal.rows row (hwritten ▸ hrow)
    · exact fun p hp => (hfinal.recorded p hp).mono fun row hrow => hwritten ▸ hrow
    · have hnodup : (run.processed.map Processed.documents).Nodup := by
        rw [hfinal.documents]
        exact nodup_persisted.map_on fun t ht u hu => evidence_injective ht hu
      exact List.pairwise_map.mp hnodup
    · have hidle := @running_foldlM _ _ _ _ _ _ _ _ _ _ log hrun hstart
        (by rw [List.nil_append, map_fst_zipIdx]; exact fun t ht => ht)
        (by rw [List.nil_append, map_fst_zipIdx]; exact nodup_persisted)
      rw [map_fst_zipIdx] at hidle
      exact hidle.2 hone hlog fun p hp => absurd hp List.not_mem_nil

end RetailPrintGuard.Correlation.OrderEvidence

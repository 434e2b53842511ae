import RetailPrintGuard.Correlation.Worker

/-! # What persisting does to the active correlations

Persisting a transaction leaves one active correlation for it and retires
every other active one that overlaps it. -/
namespace RetailPrintGuard.Correlation.Persistence
open RetailPrintGuard.Common.Python RetailPrintGuard.Common.Domain
open RetailPrintGuard.Library RetailPrintGuard.Library.ListOrder
open RetailPrintGuard.Correlation.Scoring RetailPrintGuard.Correlation.Engine
open RetailPrintGuard.Correlation.Acceptance RetailPrintGuard.Correlation.Partition
open RetailPrintGuard.Correlation.CandidateBatch RetailPrintGuard.Correlation.Worker
open RetailPrintGuard.Db.Models

/-- An active correlation of the database. -/
def Active (db : Database) (correlation : DocumentCorrelation) : Prop :=
  correlation ∈ db.correlations ∧ correlation.active = true

/-- Every document is a member of at most one active correlation. -/
def SingleMembership (db : Database) : Prop :=
  ∀ a b, Active db a → Active db b → ∀ id, id ∈ a.memberIds → id ∈ b.memberIds → a = b

/-- The members of a correlation are the documents it was computed from. -/
def FingerprintMembers (correlation : DocumentCorrelation) : Prop :=
  ∀ id, id ∈ correlation.memberIds ↔
    ∃ evidence ∈ correlation.inputFingerprint.preimage, evidence.documentId = id

/-- What the worker keeps of its own rows. -/
structure Sound (rt : Runtime) (db : Database) : Prop where
  single : SingleMembership db
  drawn : ∀ c ∈ db.correlations, ∃ n < db.drawn, c.id = rt.uuid4 n
  members : ∀ c ∈ db.correlations, FingerprintMembers c
  algorithm : ∀ c ∈ db.correlations, c.algorithmVersion = algorithmVersion

theorem sound_empty (rt : Runtime) : Sound rt {} where
  single _ _ ha := absurd ha.1 (Table.not_mem_empty _)
  drawn _ hc := absurd hc (Table.not_mem_empty _)
  members _ hc := absurd hc (Table.not_mem_empty _)
  algorithm _ hc := absurd hc (Table.not_mem_empty _)

variable {rt : Runtime} {engine : CorrelationEngine} {db : Database}

/-- Steps that leave the correlations alone. -/
theorem Sound.frame {db' : Database} (h : Sound rt db) (hc : db'.correlations = db.correlations)
    (hn : db.drawn ≤ db'.drawn) : Sound rt db' where
  single a b ha hb := by
    unfold Active at ha hb
    rw [hc] at ha hb
    exact h.single a b ha hb
  drawn c hm := by
    rw [hc] at hm
    obtain ⟨n, hlt, hid⟩ := h.drawn c hm
    exact ⟨n, hlt.trans_le hn, hid⟩
  members c hm := h.members c (hc ▸ hm)
  algorithm c hm := h.algorithm c (hc ▸ hm)

/-! ## Superseding -/

section
variable {query : DocumentCorrelation → Bool}

theorem mem_supersedeWhere {c : DocumentCorrelation} :
    c ∈ (supersedeWhere db query).correlations ↔
      ∃ old ∈ db.correlations, (if query old then old.supersede else old) = c := List.mem_map

theorem active_supersedeWhere {c : DocumentCorrelation} :
    Active (supersedeWhere db query) c ↔ Active db c ∧ query c = false := by
  unfold Active
  rw [mem_supersedeWhere]
  constructor
  · intro h
    obtain ⟨⟨old, ho, rfl⟩, hact⟩ := h
    cases hq : query old with
    | true => simp [hq] at hact
    | false =>
      rw [if_neg (by simp [hq])] at hact ⊢
      exact ⟨⟨ho, hact⟩, hq⟩
  · intro h
    obtain ⟨⟨hc, hact⟩, hq⟩ := h
    exact ⟨⟨c, hc, by simp [hq]⟩, hact⟩

/-- Superseding changes nothing but statuses. -/
theorem forall_supersedeWhere {P : DocumentCorrelation → Prop} (hP : ∀ c, P c → P c.supersede)
    (h : ∀ c ∈ db.correlations, P c) : ∀ c ∈ (supersedeWhere db query).correlations, P c := by
  intro c hc
  obtain ⟨old, ho, rfl⟩ := mem_supersedeWhere.mp hc
  split
  · exact hP old (h old ho)
  · exact h old ho

theorem Sound.supersedeWhere (h : Sound rt db) : Sound rt (supersedeWhere db query) where
  single a b ha hb :=
    h.single a b (active_supersedeWhere.mp ha).1 (active_supersedeWhere.mp hb).1
  drawn := forall_supersedeWhere (fun _ hc => hc) h.drawn
  members := forall_supersedeWhere (fun _ hc => hc) h.members
  algorithm := forall_supersedeWhere (fun _ hc => hc) h.algorithm

end

/-! ## Persisting one transaction -/

section
variable {transaction : CorrelatedTransaction} {loaded : List LoadedDocument}

/-- Every document of the transaction was loaded. -/
def Covered (loaded : List LoadedDocument) (transaction : CorrelatedTransaction) : Prop :=
  ∀ document ∈ transaction.documents, ∃ item ∈ loaded, item.value.id = document.id

/-- The row stands for the transaction, on the versions loaded. -/
structure Represents (loaded : List LoadedDocument) (transaction : CorrelatedTransaction)
    (correlation : DocumentCorrelation) : Prop where
  members : ∀ id, id ∈ correlation.memberIds ↔ id ∈ transaction.ids
  fingerprint : correlation.inputFingerprint =
    correlationInputFingerprint transaction.documents loaded

theorem mem_fingerprint (hc : Covered loaded transaction) {id : UUID} :
    (∃ evidence ∈ (correlationInputFingerprint transaction.documents loaded).preimage,
      evidence.documentId = id) ↔ id ∈ transaction.ids := by
  simp only [correlationInputFingerprint, List.mem_filterMap, mem_sorted, CorrelatedTransaction.ids,
    List.mem_map]
  constructor
  · intro h
    obtain ⟨evidence, ⟨document, hm, he⟩, rfl⟩ := h
    simp only [inputEvidence, Option.map_eq_some_iff] at he
    obtain ⟨item, -, rfl⟩ := he
    exact ⟨document, hm, rfl⟩
  · intro h
    obtain ⟨document, hm, rfl⟩ := h
    obtain ⟨item, hi, hid⟩ := hc document hm
    cases hf : loaded.find? fun item => item.value.id == document.id with
    | none =>
      have hn := List.find?_eq_none.mp hf item hi
      simp [hid] at hn
    | some found =>
      exact ⟨_, ⟨document, hm, by rw [inputEvidence, hf]; rfl⟩, rfl⟩

theorem newCorrelation_memberIds (fingerprint : Fingerprint) :
    (newCorrelation rt engine db transaction fingerprint).memberIds = transaction.ids := by
  simp [newCorrelation, DocumentCorrelation.memberIds, CorrelatedTransaction.ids,
    correlationMember, Function.comp_def]

theorem newCorrelation_active (fingerprint : Fingerprint) :
    (newCorrelation rt engine db transaction fingerprint).active = true := by
  simp only [newCorrelation, DocumentCorrelation.active]
  split <;> rfl

theorem reactivate_active (existing : DocumentCorrelation) :
    (reactivate transaction existing).active = true := by
  unfold reactivate
  split
  · simp only [DocumentCorrelation.active]
    split <;> rfl
  · simp only [DocumentCorrelation.active]
    cases hs : existing.status <;> simp_all [CorrelationStatus.active]

theorem reactivate_of_active {existing : DocumentCorrelation} (h : existing.active = true) :
    reactivate transaction existing = existing := by
  unfold reactivate
  rw [if_neg]
  intro hs
  simp [DocumentCorrelation.active, hs, CorrelationStatus.active] at h

@[simp] theorem reactivate_memberIds (existing : DocumentCorrelation) :
    (reactivate transaction existing).memberIds = existing.memberIds := by
  unfold reactivate
  split <;> rfl

@[simp] theorem reactivate_transactionId (existing : DocumentCorrelation) :
    (reactivate transaction existing).transactionId = existing.transactionId := by
  unfold reactivate
  split <;> rfl

@[simp] theorem reactivate_fingerprint (existing : DocumentCorrelation) :
    (reactivate transaction existing).inputFingerprint = existing.inputFingerprint := by
  unfold reactivate
  split <;> rfl

@[simp] theorem reactivate_algorithm (existing : DocumentCorrelation) :
    (reactivate transaction existing).algorithmVersion = existing.algorithmVersion := by
  unfold reactivate
  split <;> rfl

/-- The row persisting finds or makes. -/
structure Persisted (rt : Runtime) (db db' : Database) (loaded : List LoadedDocument)
    (transaction : CorrelatedTransaction) (current : DocumentCorrelation) : Prop where
  sound : Sound rt db'
  represents : Represents loaded transaction current
  active_iff : ∀ c, Active db' c ↔
    c = current ∨ (Active db c ∧ c.overlaps transaction.ids = false)

theorem single_of_active_iff {db' : Database} {ids : List UUID} {current : DocumentCorrelation}
    (h : SingleMembership db) (hm : ∀ id, id ∈ current.memberIds ↔ id ∈ ids)
    (hiff : ∀ c, Active db' c ↔ c = current ∨ (Active db c ∧ c.overlaps ids = false)) :
    SingleMembership db' := by
  have hdisj : ∀ c : DocumentCorrelation, c.overlaps ids = false → ∀ id, id ∈ c.memberIds →
      id ∉ current.memberIds := by
    intro c hc id hid hcur
    rw [DocumentCorrelation.overlaps_iff.mpr ⟨id, hid, (hm id).mp hcur⟩] at hc
    cases hc
  intro a b ha hb id hida hidb
  obtain rfl | ⟨ha, hao⟩ := (hiff a).mp ha
  · obtain rfl | ⟨-, hbo⟩ := (hiff b).mp hb
    · rfl
    · exact absurd hida (hdisj b hbo id hidb)
  · obtain rfl | ⟨hb, -⟩ := (hiff b).mp hb
    · exact absurd hidb (hdisj a hao id hida)
    · exact h a b ha hb id hida hidb

/-- A transaction seen before: its row stays or becomes active. -/
theorem persist_existing (h : Sound rt db) (hc : Covered loaded transaction)
    {existing : DocumentCorrelation}
    (hf : db.correlations.rows.find? (sameInput transaction.transactionId
      (correlationInputFingerprint transaction.documents loaded)) = some existing) :
    Persisted rt db (persistCorrelation rt engine db transaction loaded) loaded transaction
      (reactivate transaction existing) := by
  have hmem : existing ∈ db.correlations := List.mem_of_find?_eq_some hf
  have hsame := List.find?_some hf
  simp only [sameInput, Bool.and_eq_true, beq_iff_eq] at hsame
  have hids : ∀ id, id ∈ existing.memberIds ↔ id ∈ transaction.ids := by
    intro id
    rw [h.members existing hmem id, hsame.2]
    exact mem_fingerprint hc
  have hrows : ∀ c, c ∈ (persistCorrelation rt engine db transaction loaded).correlations ↔
      ∃ old ∈ (supersedeWhere db fun correlation => correlation.active &&
          correlation.overlaps transaction.ids && correlation.id != existing.id).correlations,
        (if old.id = existing.id then reactivate transaction old else old) = c := by
    intro c
    simp only [persistCorrelation, hf]
    exact Table.mem_update
  have hdrawn : (persistCorrelation rt engine db transaction loaded).drawn = db.drawn := by
    simp only [persistCorrelation, hf]
    rfl
  have hkeep : (if existing.active && existing.overlaps transaction.ids &&
      existing.id != existing.id then existing.supersede else existing) = existing := by simp
  have hiff : ∀ c, Active (persistCorrelation rt engine db transaction loaded) c ↔
      c = reactivate transaction existing ∨
        (Active db c ∧ c.overlaps transaction.ids = false) := by
    intro c
    unfold Active
    rw [hrows]
    constructor
    · intro hact
      obtain ⟨⟨old, ho, rfl⟩, hact⟩ := hact
      obtain ⟨older, holder, rfl⟩ := mem_supersedeWhere.mp ho
      by_cases hid : older.id = existing.id
      · have heq := Table.eq_of_key holder hmem hid
        subst heq
        left
        simp
      · have hid' : ((if older.active && older.overlaps transaction.ids &&
            older.id != existing.id then older.supersede else older)).id ≠ existing.id := by
          split <;> exact hid
        rw [if_neg hid'] at hact ⊢
        right
        have hstill : Active (supersedeWhere db fun correlation => correlation.active &&
            correlation.overlaps transaction.ids && correlation.id != existing.id)
            (if older.active && older.overlaps transaction.ids && older.id != existing.id then
              older.supersede else older) := ⟨mem_supersedeWhere.mpr ⟨older, holder, rfl⟩, hact⟩
        have ha := active_supersedeWhere.mp hstill
        refine ⟨ha.1, ?_⟩
        have hq := ha.2
        have hne : ((if older.active && older.overlaps transaction.ids &&
            older.id != existing.id then older.supersede else older).id != existing.id) = true := by
          simpa using hid'
        rw [hact, hne, Bool.true_and, Bool.and_true] at hq
        exact hq
    · intro hc'
      obtain rfl | ⟨⟨hold, hact⟩, hno⟩ := hc'
      · exact ⟨⟨existing, mem_supersedeWhere.mpr ⟨existing, hmem, hkeep⟩, by simp⟩,
          reactivate_active existing⟩
      · refine ⟨⟨c, mem_supersedeWhere.mpr ⟨c, hold, by simp [hno]⟩, ?_⟩, hact⟩
        split
        · exact reactivate_of_active hact
        · rfl
  refine ⟨⟨?_, ?_, ?_, ?_⟩, ⟨fun id => ?_, ?_⟩, hiff⟩
  · refine single_of_active_iff h.single (fun id => ?_) hiff
    rw [reactivate_memberIds]
    exact hids id
  · intro c hcm
    rw [hdrawn]
    obtain ⟨old, ho, rfl⟩ := (hrows c).mp hcm
    have hd := h.supersedeWhere.drawn old ho
    split
    · rw [reactivate_id]
      exact hd
    · exact hd
  · intro c hcm
    obtain ⟨old, ho, rfl⟩ := (hrows c).mp hcm
    have hd := h.supersedeWhere.members old ho
    split
    · intro id
      rw [reactivate_memberIds, reactivate_fingerprint]
      exact hd id
    · exact hd
  · intro c hcm
    obtain ⟨old, ho, rfl⟩ := (hrows c).mp hcm
    have hd := h.supersedeWhere.algorithm old ho
    split
    · rw [reactivate_algorithm]
      exact hd
    · exact hd
  · rw [reactivate_memberIds]
    exact hids id
  · rw [reactivate_fingerprint]
    exact hsame.2

/-- A transaction not seen before: a new row. -/
theorem persist_new (h : Sound rt db) (hc : Covered loaded transaction)
    (hf : db.correlations.rows.find? (sameInput transaction.transactionId
      (correlationInputFingerprint transaction.documents loaded)) = none) :
    Persisted rt db (persistCorrelation rt engine db transaction loaded) loaded transaction
      (newCorrelation rt engine db transaction
        (correlationInputFingerprint transaction.documents loaded)) := by
  have hs : Sound rt (supersedeWhere db fun correlation =>
      correlation.active && correlation.overlaps transaction.ids) := h.supersedeWhere
  have hfresh : ∀ other ∈ (supersedeWhere db fun correlation =>
      correlation.active && correlation.overlaps transaction.ids).correlations,
      other.id ≠ (newCorrelation rt engine db transaction
        (correlationInputFingerprint transaction.documents loaded)).id := by
    intro other ho heq
    obtain ⟨n, hlt, hid⟩ := hs.drawn other ho
    rw [hid] at heq
    exact hlt.ne (rt.uuid4_injective heq)
  have hrows : ∀ c, c ∈ (persistCorrelation rt engine db transaction loaded).correlations ↔
      c ∈ (supersedeWhere db fun correlation =>
          correlation.active && correlation.overlaps transaction.ids).correlations ∨
        c = newCorrelation rt engine db transaction
          (correlationInputFingerprint transaction.documents loaded) := by
    intro c
    simp only [persistCorrelation, hf]
    exact Table.mem_insert hfresh
  have hdrawn : (persistCorrelation rt engine db transaction loaded).drawn = db.drawn + 1 := by
    simp only [persistCorrelation, hf]
  have hiff : ∀ c, Active (persistCorrelation rt engine db transaction loaded) c ↔
      c = newCorrelation rt engine db transaction
          (correlationInputFingerprint transaction.documents loaded) ∨
        (Active db c ∧ c.overlaps transaction.ids = false) := by
    intro c
    unfold Active
    rw [hrows]
    constructor
    · intro hact
      obtain ⟨hold | rfl, hact⟩ := hact
      · have ha := active_supersedeWhere.mp ⟨hold, hact⟩
        have hq := ha.2
        rw [hact, Bool.true_and] at hq
        exact Or.inr ⟨ha.1, hq⟩
      · exact Or.inl rfl
    · intro hc'
      obtain rfl | ⟨⟨hold, hact⟩, hno⟩ := hc'
      · exact ⟨Or.inr rfl, newCorrelation_active _⟩
      · exact ⟨Or.inl (mem_supersedeWhere.mpr ⟨c, hold, by simp [hno]⟩), hact⟩
  refine ⟨⟨?_, ?_, ?_, ?_⟩, ⟨fun id => ?_, rfl⟩, hiff⟩
  · refine single_of_active_iff h.single (fun id => ?_) hiff
    rw [newCorrelation_memberIds]
  · intro c hcm
    rw [hdrawn]
    obtain hold | rfl := (hrows c).mp hcm
    · obtain ⟨n, hlt, hid⟩ := hs.drawn c hold
      exact ⟨n, Nat.lt_succ_of_lt hlt, hid⟩
    · exact ⟨db.drawn, Nat.lt_succ_self _, rfl⟩
  · intro c hcm
    obtain hold | rfl := (hrows c).mp hcm
    · exact hs.members c hold
    · intro id
      rw [newCorrelation_memberIds]
      exact (mem_fingerprint hc).symm
  · intro c hcm
    obtain hold | rfl := (hrows c).mp hcm
    · exact hs.algorithm c hold
    · rfl
  · rw [newCorrelation_memberIds]

/-- **One active correlation for the transaction, none that overlaps it.** -/
theorem persist_spec (engine : CorrelationEngine) (h : Sound rt db) (hc : Covered loaded transaction) :
    ∃ current, Persisted rt db (persistCorrelation rt engine db transaction loaded) loaded
      transaction current := by
  cases hf : db.correlations.rows.find? (sameInput transaction.transactionId
      (correlationInputFingerprint transaction.documents loaded)) with
  | some existing => exact ⟨_, persist_existing h hc hf⟩
  | none => exact ⟨_, persist_new h hc hf⟩

end

/-! ## Persisting a run -/

/-- No two transactions share a document. -/
def Disjoint (transactions : List CorrelatedTransaction) : Prop :=
  ∀ t ∈ transactions, ∀ t' ∈ transactions, ∀ id, id ∈ t.ids → id ∈ t'.ids → t = t'

/-- The database after a list of transactions was persisted. -/
structure PersistedAll (rt : Runtime) (db db' : Database) (loaded : List LoadedDocument)
    (transactions : List CorrelatedTransaction) : Prop where
  sound : Sound rt db'
  represented : ∀ t ∈ transactions, ∃ c, Active db' c ∧ Represents loaded t c
  origin : ∀ c, Active db' c → (∃ t ∈ transactions, Represents loaded t c) ∨
    (Active db c ∧ ∀ t ∈ transactions, c.overlaps t.ids = false)
  kept : ∀ c, Active db c → (∀ t ∈ transactions, c.overlaps t.ids = false) → Active db' c

/-- A row of a transaction overlaps no other transaction. -/
theorem Represents.not_overlaps {loaded : List LoadedDocument} {t t' : CorrelatedTransaction}
    {c : DocumentCorrelation} (h : Represents loaded t c)
    (hne : ∀ id, id ∈ t.ids → id ∉ t'.ids) : c.overlaps t'.ids = false := by
  rw [Bool.eq_false_iff]
  intro ho
  obtain ⟨id, hid, hid'⟩ := DocumentCorrelation.overlaps_iff.mp ho
  exact hne id ((h.members id).mp hid) hid'

/-- **The transactions of a run and the active rows none of them overlaps are
the active rows after it.** -/
theorem persistAll_spec {loaded : List LoadedDocument} {transactions : List CorrelatedTransaction}
    (h : Sound rt db) (hc : ∀ t ∈ transactions, Covered loaded t) (hd : Disjoint transactions) :
    PersistedAll rt db (transactions.foldl
      (fun db transaction => persistCorrelation rt engine db transaction loaded) db) loaded
      transactions := by
  induction transactions generalizing db with
  | nil =>
    exact ⟨h, fun t ht => absurd ht List.not_mem_nil,
      fun c hc => Or.inr ⟨hc, fun t ht => absurd ht List.not_mem_nil⟩, fun c hc _ => hc⟩
  | cons t ts ih =>
    obtain ⟨current, hsound, hrep, hiff⟩ := persist_spec engine h (hc t List.mem_cons_self)
    have hrest := ih hsound (fun u hu => hc u (List.mem_cons_of_mem _ hu))
      (fun u hu v hv => hd u (List.mem_cons_of_mem _ hu) v (List.mem_cons_of_mem _ hv))
    have hfirst : ∃ c, Active (ts.foldl (fun db transaction =>
        persistCorrelation rt engine db transaction loaded)
        (persistCorrelation rt engine db t loaded)) c ∧ Represents loaded t c := by
      by_cases ht : t ∈ ts
      · exact hrest.represented t ht
      · refine ⟨current, hrest.kept current ((hiff current).mpr (Or.inl rfl)) ?_, hrep⟩
        intro u hu
        refine hrep.not_overlaps fun id hid hid' => ht ?_
        rw [hd t List.mem_cons_self u (List.mem_cons_of_mem _ hu) id hid hid']
        exact hu
    refine ⟨hrest.sound, ?_, ?_, ?_⟩
    · intro u hu
      obtain rfl | hu := List.mem_cons.mp hu
      · exact hfirst
      · exact hrest.represented u hu
    · intro c hact
      obtain ⟨u, hu, hr⟩ | ⟨hact, hno⟩ := hrest.origin c hact
      · exact Or.inl ⟨u, List.mem_cons_of_mem _ hu, hr⟩
      · obtain rfl | ⟨hold, hnot⟩ := (hiff c).mp hact
        · exact Or.inl ⟨t, List.mem_cons_self, hrep⟩
        · exact Or.inr ⟨hold, List.forall_mem_cons.mpr ⟨hnot, hno⟩⟩
    · intro c hact hno
      have hno := List.forall_mem_cons.mp hno
      exact hrest.kept c ((hiff c).mpr (Or.inr ⟨hact, hno.1⟩)) hno.2

/-! ## What stays -/

/-- Everything but correlations and drawn identifiers. -/
structure SameInput (db db' : Database) : Prop where
  jobs : db'.jobs = db.jobs
  documents : db'.documents = db.documents
  versions : db'.versions = db.versions
  parserVersions : db'.parserVersions = db.parserVersions
  activeParsers : db'.activeParsers = db.activeParsers

theorem SameInput.refl (db : Database) : SameInput db db := ⟨rfl, rfl, rfl, rfl, rfl⟩

theorem SameInput.trans {a b c : Database} (h : SameInput a b) (k : SameInput b c) :
    SameInput a c :=
  ⟨k.jobs.trans h.jobs, k.documents.trans h.documents, k.versions.trans h.versions,
    k.parserVersions.trans h.parserVersions, k.activeParsers.trans h.activeParsers⟩

theorem sameInput_persist (rt : Runtime) (engine : CorrelationEngine) (db : Database)
    (transaction : CorrelatedTransaction) (loaded : List LoadedDocument) :
    SameInput db (persistCorrelation rt engine db transaction loaded) ∧
      (persistCorrelation rt engine db transaction loaded).watermark = db.watermark := by
  unfold persistCorrelation
  dsimp only
  split
  · exact ⟨⟨rfl, rfl, rfl, rfl, rfl⟩, rfl⟩
  · exact ⟨⟨rfl, rfl, rfl, rfl, rfl⟩, rfl⟩

theorem drawn_le_persist (rt : Runtime) (engine : CorrelationEngine) (db : Database)
    (transaction : CorrelatedTransaction) (loaded : List LoadedDocument) :
    db.drawn ≤ (persistCorrelation rt engine db transaction loaded).drawn := by
  unfold persistCorrelation
  dsimp only
  split
  · exact le_rfl
  · exact Nat.le_succ _

theorem drawn_le_persistAll (rt : Runtime) (engine : CorrelationEngine) (db : Database)
    (transactions : List CorrelatedTransaction) (loaded : List LoadedDocument) :
    db.drawn ≤ (transactions.foldl (fun db transaction =>
      persistCorrelation rt engine db transaction loaded) db).drawn := by
  induction transactions generalizing db with
  | nil => exact le_rfl
  | cons t ts ih => exact (drawn_le_persist rt engine db t loaded).trans (ih _)

theorem sameInput_persistAll (rt : Runtime) (engine : CorrelationEngine) (db : Database)
    (transactions : List CorrelatedTransaction)
    (loaded : List LoadedDocument) :
    SameInput db (transactions.foldl (fun db transaction =>
      persistCorrelation rt engine db transaction loaded) db) ∧
    (transactions.foldl (fun db transaction =>
      persistCorrelation rt engine db transaction loaded) db).watermark = db.watermark := by
  induction transactions generalizing db with
  | nil => exact ⟨SameInput.refl db, rfl⟩
  | cons t ts ih =>
    have hone := sameInput_persist rt engine db t loaded
    have hrest := ih (persistCorrelation rt engine db t loaded)
    exact ⟨hone.1.trans hrest.1, hrest.2.trans hone.2⟩

end RetailPrintGuard.Correlation.Persistence

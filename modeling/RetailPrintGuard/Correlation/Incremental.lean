import RetailPrintGuard.Correlation.Idempotence
import RetailPrintGuard.Correlation.SaleSeeds

/-! # Incremental correlation and batch correlation

Runs that see whole episodes keep the active correlations equal to the grouping
of a single batch of all the documents. -/
namespace RetailPrintGuard.Correlation.Incremental
open RetailPrintGuard.Common.Python RetailPrintGuard.Common.Domain
open RetailPrintGuard.Library.ConstrainedMerge RetailPrintGuard.Library.ListOrder
open RetailPrintGuard.Correlation.Scoring RetailPrintGuard.Correlation.Engine
open RetailPrintGuard.Correlation.Acceptance RetailPrintGuard.Correlation.Partition
open RetailPrintGuard.Correlation.Locality RetailPrintGuard.Correlation.Episodes
open RetailPrintGuard.Correlation.CandidateBatch RetailPrintGuard.Correlation.Loading
open RetailPrintGuard.Correlation.Worker RetailPrintGuard.Correlation.Persistence
open RetailPrintGuard.Correlation.Run RetailPrintGuard.Correlation.Arrivals
open RetailPrintGuard.Correlation.Coverage RetailPrintGuard.Correlation.SaleSeeds
open RetailPrintGuard.Correlation.Idempotence
open RetailPrintGuard.Db.Models RetailPrintGuard.Library RetailPrintGuard.Library.Runs
open RetailPrintGuard.Parser.FirstParse RetailPrintGuard.System

section
variable (rt : Runtime) (engine : CorrelationEngine) (db : Database) (limit : Nat)

/-! ## What a run must see -/

/-- An episode with a sale seed, all of whose documents the run loads. -/
structure Analysed (X : UUID → Bool) : Prop where
  seed : ∃ row ∈ seedRows db limit engine.timeWindowSeconds, row.value.type.nonSale = false ∧
    X row.document.id = true
  episode : Episode rt engine (saleDocuments db) (seedIds db limit engine.timeWindowSeconds) X
  loaded : ∀ row ∈ documentQuery db, row.value.type.nonSale = false → X row.document.id = true →
    candidateRow rt db limit engine.timeWindowSeconds row = true

/-- The run selects every sale document that is not correlated, and each of its
sale seeds stands in an episode it analyses. -/
structure SeesEpisodes : Prop where
  selected : Selected db limit engine.timeWindowSeconds
  episode : ∀ seed ∈ seedRows db limit engine.timeWindowSeconds, seed.value.type.nonSale = false →
    ∃ X, Analysed rt engine db limit X ∧ X seed.document.id = true

/-- A job is imported, parsed for the first time, or a run sees its episodes. -/
def Agreeing : Step → Prop
  | .importJob _ => True
  | .storeDocuments jobId _ => Unparsed db jobId
  | .runOnce limit => SeesEpisodes rt engine db limit
  | .recordFailure _ _ | .activateParserVersion _ _ _ | .reviewJob _ _ => False

end

/-- An active correlation holds both documents. -/
def Share (db : Database) (a b : UUID) : Prop := ∃ c, Active db c ∧ a ∈ c.memberIds ∧ b ∈ c.memberIds

/-- The active correlations group the documents they hold as a batch would. -/
structure Agrees (rt : Runtime) (engine : CorrelationEngine) (db : Database) : Prop where
  growing : Growing rt db
  nonempty : ∀ c, Active db c → c.memberIds ≠ []
  passed : PassedCorrelated db
  grouped : ∀ a ∈ correlatedDocuments db, ∀ b ∈ correlatedDocuments db,
    Share db a.id b.id ↔ Grouped rt engine (correlatedDocuments db) a b

variable {rt : Runtime} {engine : CorrelationEngine} {db db' : Database} {limit : Nat}
  {X : UUID → Bool} {t : CorrelatedTransaction}

/-! ## The transactions of a run -/

theorem pairwise_loaded :
    (prepare rt engine db limit).loaded.Pairwise LoadedBefore := by
  have hbatch : (candidateBatch rt db limit engine.timeWindowSeconds).loaded.Pairwise
      LoadedBefore := by
    unfold candidateBatch
    dsimp only
    split
    · exact List.Pairwise.nil
    · exact List.pairwise_insertionSort _ _
  rw [prepare_loaded]
  split
  · exact hbatch
  · exact List.pairwise_insertionSort _ _

theorem sortDocuments_values :
    sortDocuments (prepare rt engine db limit).values = (prepare rt engine db limit).values :=
  sortDocuments_sorted (List.pairwise_map.mpr (pairwise_loaded.filter _))

/-- A transaction is the class of any of its documents. -/
theorem mem_transaction_iff (h : Growing rt db)
    (ht : t ∈ (prepare rt engine db limit).transactions rt engine)
    {a b : NormalizedDocument} (ha : a ∈ t.documents) :
    b ∈ t.documents ↔ b ∈ (prepare rt engine db limit).values ∧
      Together rt engine (prepare rt engine db limit).values
        (seededEdges rt engine (prepare rt engine db limit).values
          (seedIds db limit engine.timeWindowSeconds)) a b := by
  unfold Analysis.transactions correlateCandidates at ht
  rw [sortDocuments_values, h.prepare_seedIds] at ht
  obtain ⟨d, -, rfl⟩ := mem_correlatePairs.mp ht
  rw [buildTransaction_documents, mem_sortDocuments, mem_classOf] at ha ⊢
  refine and_congr_right fun _ => ?_
  exact ⟨fun hb => ha.2.trans hb.symm, fun hab => hab.symm.trans ha.2⟩

theorem sale_of_values : ∀ d ∈ (prepare rt engine db limit).values, d ∈ saleDocuments db := by
  intro d hd
  obtain ⟨row, hrow, hs, rfl⟩ := row_of_mem_values hd
  have hsale := (List.mem_filter.mp hs).2
  exact mem_saleDocuments.mpr ⟨row, ⟨hrow, by simpa using hsale⟩, rfl⟩

theorem Analysed.mem_values (ha : Analysed rt engine db limit X) (h : Growing rt db) :
    ∀ d ∈ saleDocuments db, X d.id = true → d ∈ (prepare rt engine db limit).values := by
  intro d hd hx
  obtain ⟨row, hrow, rfl⟩ := mem_saleDocuments.mp hd
  obtain ⟨seed, hseed, -⟩ := ha.seed
  exact (h.mem_values (List.ne_nil_of_mem hseed)).mpr ⟨row, hrow, ha.loaded row hrow.1 hrow.2 hx, rfl⟩

/-- No transaction crosses an episode. -/
theorem transaction_uncrossed (h : Growing rt db)
    (hX : Uncrossed engine X (batchEdges rt engine (saleDocuments db)))
    (ht : t ∈ (prepare rt engine db limit).transactions rt engine) {a b : UUID}
    (ha : a ∈ t.ids) (hb : b ∈ t.ids) : X a = X b := by
  obtain ⟨a, hma, rfl⟩ := List.mem_map.mp ha
  obtain ⟨b, hmb, rfl⟩ := List.mem_map.mp hb
  exact (uncrossed_seeded distinct_saleDocuments distinct_values sale_of_values hX).same
    ((mem_transaction_iff h ht hma).mp hmb).2

/-- A persisted transaction lies in an analysed episode. -/
theorem episode_of_persisted (h : Growing rt db) (hs : SeesEpisodes rt engine db limit)
    (ht : t ∈ (prepare rt engine db limit).persisted rt engine) :
    ∃ X, Analysed rt engine db limit X ∧ ∀ id ∈ t.ids, X id = true := by
  obtain ⟨ht, id, hid, hseed⟩ := mem_persisted.mp ht
  rw [h.prepare_seedIds] at hseed
  obtain ⟨seed, hrowSeed, rfl⟩ := mem_seedIds.mp hseed
  obtain ⟨d, hd, heq⟩ := List.mem_map.mp hid
  obtain ⟨row, hrow, rfl⟩ := mem_saleDocuments.mp (sale_of_values d (documents_of_transaction ht hd))
  cases eq_of_documentId hrow.1 (mem_seedRows hrowSeed).1 heq
  obtain ⟨X, hX, hx⟩ := hs.episode seed hrowSeed hrow.2
  exact ⟨X, hX, fun id' hid' => (transaction_uncrossed h hX.episode.closed ht hid' hid).trans hx⟩

/-! ## The correlations before and after a run -/

/-- Two documents share a correlation after a run when a persisted transaction
holds both, or an old correlation that no persisted transaction overlaps. -/
theorem share_runOnce (h : Growing rt db) {a b : UUID} :
    Share (runOnce rt engine db limit) a b ↔
      (∃ t ∈ (prepare rt engine db limit).persisted rt engine, a ∈ t.ids ∧ b ∈ t.ids) ∨
      ∃ c, Active db c ∧ a ∈ c.memberIds ∧ b ∈ c.memberIds ∧
        ∀ t ∈ (prepare rt engine db limit).persisted rt engine, c.overlaps t.ids = false := by
  have hspec := @runOnce_spec rt engine db limit h.sound
  constructor
  · intro hshare
    obtain ⟨c, hc, ha, hb⟩ := hshare
    obtain ⟨t, ht, hrep⟩ | ⟨hold, hover⟩ := hspec.origin c hc
    · exact Or.inl ⟨t, ht, (hrep.members a).mp ha, (hrep.members b).mp hb⟩
    · exact Or.inr ⟨c, (active_prepare.mp hold).1, ha, hb, hover⟩
  · intro hcases
    obtain ⟨t, ht, ha, hb⟩ | ⟨c, hc, ha, hb, hover⟩ := hcases
    · obtain ⟨c, hc, hrep⟩ := hspec.represented t ht
      exact ⟨c, hc, (hrep.members a).mpr ha, (hrep.members b).mpr hb⟩
    · exact ⟨c, hspec.kept c (active_prepare.mpr ⟨hc, h.not_overlaps_nonSale hc⟩) hover, ha, hb⟩

/-- Nor does an old correlation cross an episode. -/
theorem Agrees.uncrossed (h : Agrees rt engine db)
    (hX : Uncrossed engine X (batchEdges rt engine (saleDocuments db))) {a b : UUID}
    (hshare : Share db a b) : X a = X b := by
  obtain ⟨c, hc, ha, hb⟩ := hshare
  obtain ⟨a, hma, rfl⟩ := document_of_member h.growing hc ha
  obtain ⟨b, hmb, rfl⟩ := document_of_member h.growing hc hb
  have hgroup := (h.grouped a hma b hmb).mp ⟨c, hc, ha, hb⟩
  have hpart : Uncrossed engine X (batchEdges rt engine (correlatedDocuments db)) :=
    uncrossed_seeded distinct_saleDocuments distinct_correlatedDocuments correlated_sub hX
  exact hgroup.uncrossed hpart

theorem share_uncrossed (h : Agrees rt engine db)
    (hX : Uncrossed engine X (batchEdges rt engine (saleDocuments db))) {a b : UUID}
    (hshare : Share (runOnce rt engine db limit) a b) : X a = X b := by
  obtain ⟨t, ht, ha, hb⟩ | ⟨c, hc, ha, hb, -⟩ := (share_runOnce h.growing).mp hshare
  · exact transaction_uncrossed h.growing hX (mem_persisted.mp ht).1 ha hb
  · exact h.uncrossed hX ⟨c, hc, ha, hb⟩

/-! ## Inside an episode -/

theorem mem_seedIds_iff (h : Agrees rt engine db) (hs : SeesEpisodes rt engine db limit)
    {d : NormalizedDocument} (hd : d ∈ saleDocuments db) :
    d.id ∈ seedIds db limit engine.timeWindowSeconds ↔ correlated db d.id = false := by
  obtain ⟨row, hrow, rfl⟩ := mem_saleDocuments.mp hd
  rw [← show row.document.id = row.value.id from rfl, ← mem_seedRows_iff h.passed hs.selected hrow,
    mem_seedIds]
  constructor
  · intro hm
    obtain ⟨other, hother, heq⟩ := hm
    cases eq_of_documentId (mem_seedRows hother).1 hrow.1 heq
    exact hother
  · exact fun hm => ⟨row, hm, rfl⟩

/-- A transaction without a seed is a single document: every pair the run
scores has one. -/
theorem eq_of_seedless (h : Growing rt db)
    (ht : t ∈ (prepare rt engine db limit).transactions rt engine)
    (hp : t ∉ (prepare rt engine db limit).persisted rt engine)
    {a b : NormalizedDocument} (ha : a ∈ t.documents) (hb : b ∈ t.documents) : a = b := by
  refine distinct_values.eq_of_id (documents_of_transaction ht ha) (documents_of_transaction ht hb) ?_
  refine eq_of_unlinked distinct_values ((mem_transaction_iff h ht ha).mp hb).2 ?_
  intro edge he hleft hright
  obtain ⟨hedge, -, hseed⟩ := (mem_linking_seededEdges distinct_values).mp he
  have hl := (mem_transaction_iff h ht ha).mpr ⟨hedge.left_mem, hleft⟩
  have hr := (mem_transaction_iff h ht ha).mpr ⟨hedge.right_mem, hright⟩
  refine hp (mem_persisted.mpr ⟨ht, ?_⟩)
  rw [h.prepare_seedIds]
  cases hseed with
  | inl hseed => exact ⟨_, List.mem_map_of_mem hl, hseed⟩
  | inr hseed => exact ⟨_, List.mem_map_of_mem hr, hseed⟩

/-- Where every link has a seed, an old correlation is a single document. -/
theorem eq_of_share (h : Agrees rt engine db) (hs : SeesEpisodes rt engine db limit)
    (hX : Uncrossed engine X (batchEdges rt engine (saleDocuments db)))
    (hall : ∀ edge ∈ linking engine (batchEdges rt engine (saleDocuments db)),
      X edge.left.id = true → edge.left.id ∈ seedIds db limit engine.timeWindowSeconds ∨
        edge.right.id ∈ seedIds db limit engine.timeWindowSeconds)
    {a b : UUID} (hxa : X a = true) (hshare : Share db a b) : a = b := by
  obtain ⟨c, hc, ha, hb⟩ := hshare
  obtain ⟨a, hma, rfl⟩ := document_of_member h.growing hc ha
  obtain ⟨b, hmb, rfl⟩ := document_of_member h.growing hc hb
  have hpart : Uncrossed engine X (batchEdges rt engine (correlatedDocuments db)) :=
    uncrossed_seeded distinct_saleDocuments distinct_correlatedDocuments correlated_sub hX
  have hno : ∀ d ∈ correlatedDocuments db, d.id ∉ seedIds db limit engine.timeWindowSeconds := by
    intro d hd hseed
    have hun := (mem_seedIds_iff h hs (correlated_sub d hd)).mp hseed
    rw [(mem_correlatedDocuments.mp hd).2] at hun
    cases hun
  refine eq_of_unlinked distinct_correlatedDocuments ((h.grouped a hma b hmb).mp ⟨c, hc, ha, hb⟩) ?_
  intro edge he hleft _
  obtain ⟨hedge, hlink⟩ := (mem_linking_batchEdges distinct_correlatedDocuments).mp he
  have hx : X edge.left.id = true := (hpart.same hleft).symm.trans hxa
  have hin := (mem_linking_batchEdges distinct_saleDocuments).mpr
    ⟨hedge.mono (correlated_sub _ hedge.left_mem) (correlated_sub _ hedge.right_mem), hlink⟩
  obtain hseed | hseed := hall edge hin hx
  · exact hno _ hedge.left_mem hseed
  · exact hno _ hedge.right_mem hseed

theorem mem_of_id {b : NormalizedDocument}
    (ht : t ∈ (prepare rt engine db limit).transactions rt engine) (hb : b ∈ saleDocuments db)
    (hid : b.id ∈ t.ids) : b ∈ t.documents := by
  obtain ⟨d, hd, heq⟩ := List.mem_map.mp hid
  have hsame := distinct_saleDocuments.eq_of_id (sale_of_values d (documents_of_transaction ht hd))
    hb heq
  exact hsame ▸ hd

/-- **Inside an analysed episode a run groups as a batch.** -/
theorem share_inside (h : Agrees rt engine db) (hs : SeesEpisodes rt engine db limit)
    (hX : Analysed rt engine db limit X) {a b : NormalizedDocument}
    (ha : a ∈ saleDocuments db) (hxa : X a.id = true) (hb : b ∈ saleDocuments db)
    (hxb : X b.id = true) :
    Share (runOnce rt engine db limit) a.id b.id ↔ Grouped rt engine (saleDocuments db) a b := by
  have hloaded := hX.mem_values h.growing
  obtain ⟨t, ht, hta⟩ := transaction_of_mem_values (hloaded a ha hxa)
  have hmem : b ∈ t.documents ↔ Grouped rt engine (saleDocuments db) a b := by
    rw [mem_transaction_iff h.growing ht hta, and_iff_right (hloaded b hb hxb)]
    exact hX.episode.grouped_iff distinct_saleDocuments distinct_values sale_of_values hloaded
      ha hxa hb hxb
  have honly : ∀ t' ∈ (prepare rt engine db limit).persisted rt engine, a.id ∈ t'.ids → t' = t :=
    fun t' ht' hid => disjoint_transactions t' (mem_persisted.mp ht').1 t ht a.id hid
      (List.mem_map_of_mem hta)
  rw [← hmem, share_runOnce h.growing]
  by_cases hp : t ∈ (prepare rt engine db limit).persisted rt engine
  · constructor
    · intro hshare
      obtain ⟨t', ht', hida, hidb⟩ | ⟨c, -, hida, -, hover⟩ := hshare
      · rw [honly t' ht' hida] at hidb
        exact mem_of_id ht hb hidb
      · have hin : a.id ∈ t.ids := List.mem_map_of_mem hta
        have hno := hover t hp
        rw [DocumentCorrelation.overlaps_iff.mpr ⟨a.id, hida, hin⟩] at hno
        cases hno
    · intro htb
      exact Or.inl ⟨t, hp, List.mem_map_of_mem hta, List.mem_map_of_mem htb⟩
  · -- without a seed: `a` stands alone, before the run and after it
    have hnone : ∀ t' ∈ (prepare rt engine db limit).persisted rt engine, a.id ∉ t'.ids :=
      fun t' ht' hid => hp (honly t' ht' hid ▸ ht')
    obtain hall | ⟨hsale, hjoined⟩ := hX.episode.seen
    · have hold : ∀ {id : UUID}, Share db a.id id → a.id = id :=
        fun hshare => eq_of_share h hs hX.episode.closed hall hxa hshare
      constructor
      · intro hshare
        obtain ⟨t', ht', hida, -⟩ | ⟨c, hc, hida, hidb, -⟩ := hshare
        · exact absurd hida (hnone t' ht')
        · have hab := distinct_saleDocuments.eq_of_id ha hb (hold ⟨c, hc, hida, hidb⟩)
          exact hab ▸ hta
      · intro htb
        have hcorr : correlated db a.id = true := by
          refine Bool.not_eq_false _ |>.mp fun hun => hp (mem_persisted.mpr ⟨ht, a.id, ?_, ?_⟩)
          · exact List.mem_map_of_mem hta
          · rw [h.growing.prepare_seedIds]
            exact (mem_seedIds_iff h hs ha).mpr hun
        obtain ⟨c, hc, hida⟩ := (correlated_iff h.growing.sound).mp hcorr
        refine Or.inr ⟨c, hc, hida, eq_of_seedless h.growing ht hp hta htb ▸ hida, ?_⟩
        intro t' ht'
        refine Bool.eq_false_iff.mpr fun hover => ?_
        obtain ⟨id, hid, hid'⟩ := DocumentCorrelation.overlaps_iff.mp hover
        rw [← hold ⟨c, hc, hida, hid⟩] at hid'
        exact hnone t' ht' hid'
    · -- one sale: its seed is in the transaction of `a`
      obtain ⟨row, hrow, hnon, hxs⟩ := hX.seed
      have hsd : row.value ∈ saleDocuments db :=
        mem_saleDocuments.mpr ⟨row, ⟨(mem_seedRows hrow).1, hnon⟩, rfl⟩
      have htog := (grouped_of_joined distinct_saleDocuments distinct_values sale_of_values hloaded
        hX.episode.closed hsale hjoined ha hxa hsd hxs).1
      have hst := (mem_transaction_iff h.growing ht hta).mpr ⟨hloaded _ hsd hxs, htog⟩
      refine absurd (mem_persisted.mpr ⟨ht, row.document.id, List.mem_map_of_mem hst, ?_⟩) hp
      rw [h.growing.prepare_seedIds]
      exact mem_seedIds.mpr ⟨row, hrow, rfl⟩

/-! ## Outside the episodes -/

/-- **Outside the analysed episodes a run changes nothing.** -/
theorem share_outside (h : Agrees rt engine db) (hs : SeesEpisodes rt engine db limit)
    {a b : NormalizedDocument} (ha : a ∈ saleDocuments db)
    (hna : ∀ X, Analysed rt engine db limit X → X a.id = false) (hb : b ∈ saleDocuments db)
    (hnb : ∀ X, Analysed rt engine db limit X → X b.id = false) :
    Share (runOnce rt engine db limit) a.id b.id ↔ Grouped rt engine (saleDocuments db) a b := by
  classical
  let U : UUID → Bool := fun id => decide (∀ X, Analysed rt engine db limit X → X id = false)
  have hU : Uncrossed engine U (batchEdges rt engine (saleDocuments db)) := by
    intro edge he
    refine decide_eq_decide.mpr (forall_congr' fun X => forall_congr' fun hX => ?_)
    rw [hX.episode.closed edge he]
  have hmem : ∀ d ∈ saleDocuments db, U d.id = true → d ∈ correlatedDocuments db := by
    intro d hd hu
    refine mem_correlatedDocuments.mpr ⟨hd, Bool.not_eq_false _ |>.mp fun hun => ?_⟩
    obtain ⟨row, hrow, rfl⟩ := mem_saleDocuments.mp hd
    obtain ⟨X, hX, hx⟩ := hs.episode row ((mem_seedRows_iff h.passed hs.selected hrow).mpr hun)
      hrow.2
    have hno := of_decide_eq_true hu X hX
    rw [show X row.value.id = true from hx] at hno
    cases hno
  have hpersisted : ∀ t ∈ (prepare rt engine db limit).persisted rt engine, ∀ id ∈ t.ids,
      U id = false := by
    intro t ht id hid
    obtain ⟨X, hX, hall⟩ := episode_of_persisted h.growing hs ht
    refine decide_eq_false fun hno => ?_
    have hout := hno X hX
    rw [hall id hid] at hout
    cases hout
  have hua : U a.id = true := decide_eq_true hna
  have hub : U b.id = true := decide_eq_true hnb
  have hshare : Share (runOnce rt engine db limit) a.id b.id ↔ Share db a.id b.id := by
    rw [share_runOnce h.growing]
    constructor
    · intro hcases
      obtain ⟨t, ht, hida, -⟩ | ⟨c, hc, hida, hidb, -⟩ := hcases
      · have hout := hpersisted t ht _ hida
        rw [hua] at hout
        cases hout
      · exact ⟨c, hc, hida, hidb⟩
    · intro hcases
      obtain ⟨c, hc, hida, hidb⟩ := hcases
      refine Or.inr ⟨c, hc, hida, hidb, fun t ht => Bool.eq_false_iff.mpr fun hover => ?_⟩
      obtain ⟨id, hid, hid'⟩ := DocumentCorrelation.overlaps_iff.mp hover
      have hin : U a.id = U id := h.uncrossed hU ⟨c, hc, hida, hid⟩
      rw [hua, hpersisted t ht id hid'] at hin
      cases hin
  rw [hshare, h.grouped a (hmem a ha hua) b (hmem b hb hub)]
  have hpart : Uncrossed engine U (batchEdges rt engine (correlatedDocuments db)) :=
    uncrossed_seeded distinct_saleDocuments distinct_correlatedDocuments correlated_sub hU
  refine same_inside distinct_correlatedDocuments distinct_saleDocuments
    (edgeList_batchEdges distinct_correlatedDocuments) (edgeList_batchEdges distinct_saleDocuments)
    hpart hU ?_ (fun d hd => ⟨fun hm => correlated_sub d hm, fun hm => hmem d hm hd⟩) hua b.id
  intro edge hx
  rw [mem_linking_batchEdges distinct_correlatedDocuments,
    mem_linking_batchEdges distinct_saleDocuments]
  refine and_congr_left fun hlink => ?_
  constructor
  · exact fun he => he.mono (correlated_sub _ he.left_mem) (correlated_sub _ he.right_mem)
  · intro he
    have hright := (hU edge ((mem_linking_batchEdges distinct_saleDocuments).mpr ⟨he, hlink⟩)).symm
    exact he.mono (hmem _ he.left_mem hx) (hmem _ he.right_mem (hright.trans hx))

/-! ## One run -/

/-- **A run that sees its episodes leaves the grouping of a batch.** -/
theorem share_iff_grouped (h : Agrees rt engine db) (hs : SeesEpisodes rt engine db limit)
    {a b : NormalizedDocument} (ha : a ∈ saleDocuments db) (hb : b ∈ saleDocuments db) :
    Share (runOnce rt engine db limit) a.id b.id ↔ Grouped rt engine (saleDocuments db) a b := by
  by_cases htouched : ∃ X, Analysed rt engine db limit X ∧ (X a.id = true ∨ X b.id = true)
  · obtain ⟨X, hX, hx⟩ := htouched
    by_cases heq : X a.id = X b.id
    · have hxa : X a.id = true := by
        obtain hx | hx := hx
        · exact hx
        · exact heq.trans hx
      exact share_inside h hs hX ha hxa hb (heq ▸ hxa)
    · exact iff_of_false (fun hshare => heq (share_uncrossed h hX.episode.closed hshare))
        (fun hgroup => heq (hgroup.uncrossed hX.episode.closed))
  · have hnone : ∀ X, Analysed rt engine db limit X → X a.id = false ∧ X b.id = false := by
      intro X hX
      constructor
      · exact Bool.eq_false_iff.mpr fun hx => htouched ⟨X, hX, Or.inl hx⟩
      · exact Bool.eq_false_iff.mpr fun hx => htouched ⟨X, hX, Or.inr hx⟩
    exact share_outside h hs ha (fun X hX => (hnone X hX).1) hb (fun X hX => (hnone X hX).2)

/-- Every sale document is correlated after such a run. -/
theorem correlatedDocuments_runOnce (h : Agrees rt engine db) (hs : SeesEpisodes rt engine db limit) :
    correlatedDocuments (runOnce rt engine db limit) = saleDocuments db := by
  rw [correlatedDocuments, saleDocuments_congr documentQuery_runOnce, List.filter_eq_self]
  intro d hd
  obtain ⟨c, hc, hid, -⟩ := (share_iff_grouped h hs hd hd).mpr (Components.Same.refl _ _)
  exact (correlated_iff (runOnce_spec h.growing.sound).sound).mpr ⟨c, hc, hid⟩

theorem Agrees.runOnce (h : Agrees rt engine db) (hs : SeesEpisodes rt engine db limit) :
    Agrees rt engine (runOnce rt engine db limit) where
  growing := h.growing.runOnce
  nonempty c hc := by
    obtain ⟨t, ht, hrep⟩ | ⟨hold, -⟩ := (runOnce_spec h.growing.sound).origin c hc
    · obtain ⟨-, id, hid, -⟩ := mem_persisted.mp ht
      exact List.ne_nil_of_mem ((hrep.members id).mpr hid)
    · exact h.nonempty c (active_prepare.mp hold).1
  passed row hrow _ := by
    rw [SaleRow, documentQuery_runOnce] at hrow
    exact passed_runOnce h.passed hs.selected hrow
  grouped a ha b hb := by
    rw [correlatedDocuments_runOnce h hs] at ha hb ⊢
    exact share_iff_grouped h hs ha hb

/-! ## Whole runs -/

theorem agrees_of_nothing_correlated (h : Growing rt db) (hn : ∀ c, ¬ Active db c) :
    Agrees rt engine db where
  growing := h
  nonempty c hc := absurd hc (hn c)
  passed row _ hcorr := by
    obtain ⟨c, hc, -⟩ := (correlated_iff h.sound).mp hcorr
    exact absurd hc (hn c)
  grouped a ha := by
    obtain ⟨c, hc, -⟩ := (correlated_iff h.sound).mp (mem_correlatedDocuments.mp ha).2
    exact absurd hc (hn c)

/-- Documents that arrive are not correlated yet. -/
theorem Agrees.arrival (h : Agrees rt engine db) (hk : KeepsAnalysis db db') (ha : Arrival db db')
    (hr : Referenced rt db') : Agrees rt engine db' := by
  have hg := h.growing.arrival hk ha hr
  have hcorr : ∀ id, correlated db' id = correlated db id := by
    intro id
    simp only [correlated, hk.correlations]
  have hactive : ∀ c, Active db' c ↔ Active db c := fun c => active_congr hk
  have hold : ∀ row, SaleRow db' row → correlated db' row.document.id = true → SaleRow db row := by
    intro row hrow hc
    rw [hcorr] at hc
    obtain ⟨c, hact, hid⟩ := (correlated_iff h.growing.sound).mp hc
    obtain ⟨old, hsale, heq⟩ := h.growing.members c hact _ hid
    cases eq_of_documentId (ha.kept old hsale.1) hrow.1 heq
    exact hsale
  have hdocs : correlatedDocuments db' = correlatedDocuments db := by
    refine correlatedDocuments_congr fun d => ?_
    rw [mem_correlatedDocuments, mem_correlatedDocuments, hcorr]
    refine and_congr_left fun hc => ?_
    rw [mem_saleDocuments, mem_saleDocuments]
    constructor
    · intro hm
      obtain ⟨row, hrow, rfl⟩ := hm
      exact ⟨row, hold row hrow ((hcorr _).trans hc), rfl⟩
    · intro hm
      obtain ⟨row, hrow, rfl⟩ := hm
      exact ⟨row, ⟨ha.kept row hrow.1, hrow.2⟩, rfl⟩
  refine ⟨hg, fun c hc => h.nonempty c ((hactive c).mp hc), fun row hrow hc => ?_, ?_⟩
  · obtain ⟨watermark, hw, hfresh, hafter⟩ :=
      h.passed row (hold row hrow hc) ((hcorr _).symm.trans hc)
    refine ⟨watermark, hk.watermark.trans hw, ?_, hafter⟩
    simp only [stale, activationFingerprint, hk.activeParsers] at hfresh ⊢
    exact hfresh
  · rw [hdocs]
    intro a hma b hmb
    rw [← h.grouped a hma b hmb]
    simp only [Share, hactive]

theorem Agrees.apply {step : Step} (hstep : Agreeing rt engine db step) (h : Agrees rt engine db) :
    Agrees rt engine (apply rt engine db step) := by
  cases step with
  | importJob job =>
    obtain ⟨ha, hr⟩ := arrival_of_job h.growing.referenced job
    exact h.arrival ⟨rfl, rfl, rfl, le_rfl⟩ ha hr
  | storeDocuments jobId documents =>
    obtain ⟨ha, hr⟩ := arrival_storeDocuments h.growing.referenced hstep documents
    exact h.arrival (keepsAnalysis_storeDocuments jobId documents) ha hr
  | runOnce limit =>
    rw [System.apply]
    exact h.runOnce hstep
  | recordFailure jobId buildHash => exact hstep.elim
  | activateParserVersion name versionId rewind => exact hstep.elim
  | reviewJob jobId action => exact hstep.elim

theorem agrees_run {steps : List Step}
    (h : AllSteps (System.apply rt engine) (Agreeing rt engine) {} steps) :
    Agrees rt engine (run rt engine steps) :=
  invariant_of_allSteps (Agrees rt engine) (fun _ _ hstep hi => hi.apply hstep)
    (agrees_of_nothing_correlated (growing_empty rt) fun _ hc => Table.not_mem_empty _ hc.1) h

/-! ## The batch -/

/-- The member sets of the active correlations. -/
def family (db : Database) : Finset (Finset UUID) :=
  ((db.correlations.rows.filter DocumentCorrelation.active).map fun correlation =>
    correlation.memberIds.toFinset).toFinset

/-- The same documents, none of them analysed yet. -/
def unanalysed (db : Database) : Database := { db with watermark := none, correlations := .empty }

/-- Every document was captured and printed within one lookback. -/
def OneWindow (db : Database) (lookbackSeconds : Nat) : Prop :=
  ∃ start : Int, ∀ row ∈ documentQuery db,
    (start ≤ row.document.capturedAt.micros ∧
      row.document.capturedAt.micros ≤ start + seconds lookbackSeconds) ∧
    start ≤ row.value.documentTime.micros ∧
      row.value.documentTime.micros ≤ start + seconds lookbackSeconds

theorem agrees_unanalysed (h : Agrees rt engine db) : Agrees rt engine (unanalysed db) := by
  have hnone : ∀ c, ¬ Active (unanalysed db) c := fun _ hc => Table.not_mem_empty _ hc.1
  refine agrees_of_nothing_correlated ⟨⟨?_, ?_, ?_, ?_⟩, ?_, ?_⟩ hnone
  · exact fun a _ ha => absurd ha (hnone a)
  · exact fun c hc => absurd hc (Table.not_mem_empty _)
  · exact fun c hc => absurd hc (Table.not_mem_empty _)
  · exact fun c hc => absurd hc (Table.not_mem_empty _)
  · exact ⟨h.growing.referenced.job, h.growing.referenced.parser, h.growing.referenced.drawn⟩
  · exact fun c hc => absurd hc (hnone c)

theorem documentQuery_unanalysed : documentQuery (unanalysed db) = documentQuery db :=
  documentQuery_congr rfl rfl rfl rfl rfl

/-- Without a watermark and with room for all of them, every document is a seed. -/
theorem mem_seedRows_unanalysed (hl : (documentQuery db).length ≤ limit) {row : QueryRow} {w : Nat} :
    row ∈ seedRows (unanalysed db) limit w ↔ row ∈ documentQuery db := by
  have hall : (documentQuery (unanalysed db)).filter (seedEligible (unanalysed db) w) =
      documentQuery db := by
    rw [documentQuery_unanalysed, List.filter_eq_self]
    exact fun _ _ => rfl
  rw [seedRows, hall, List.take_of_length_le (by rw [List.length_insertionSort]; exact hl), mem_sorted]

/-- A run that loads every sale document and skips no link sees them as one
episode. -/
theorem seesEpisodes_of_all (hs : Selected db limit engine.timeWindowSeconds)
    (hlinks : ∀ edge ∈ linking engine (batchEdges rt engine (saleDocuments db)),
      edge.left.id ∈ seedIds db limit engine.timeWindowSeconds ∨
        edge.right.id ∈ seedIds db limit engine.timeWindowSeconds)
    (hloaded : ∀ row ∈ documentQuery db, row.value.type.nonSale = false →
      candidateRow rt db limit engine.timeWindowSeconds row = true) :
    SeesEpisodes rt engine db limit := by
  refine ⟨hs, fun seed hseed hsale => ⟨fun _ => true, ⟨⟨seed, hseed, hsale, rfl⟩, ⟨?_, ?_⟩, ?_⟩, rfl⟩⟩
  · exact fun _ _ => rfl
  · exact Or.inl fun edge he _ => hlinks edge he
  · exact fun row hrow hnon _ => hloaded row hrow hnon

/-- A batch of all the documents of one window sees one episode, all of them. -/
theorem seesEpisodes_unanalysed (hl : (documentQuery db).length ≤ limit)
    (hw : OneWindow db engine.timeWindowSeconds) : SeesEpisodes rt engine (unanalysed db) limit := by
  obtain ⟨start, hwindow⟩ := hw
  have hseeds : ∀ row ∈ documentQuery (unanalysed db),
      row ∈ seedRows (unanalysed db) limit engine.timeWindowSeconds := by
    rw [documentQuery_unanalysed]
    exact fun row hrow => (mem_seedRows_unanalysed hl).mpr hrow
  refine seesEpisodes_of_all (fun row hrow _ _ => hseeds row hrow) ?_ ?_
  · intro edge he
    obtain ⟨hedge, -⟩ := (mem_linking_batchEdges distinct_saleDocuments).mp he
    obtain ⟨row, hrow, hid⟩ := mem_saleDocuments.mp hedge.left_mem
    exact Or.inl (mem_seedIds.mpr ⟨row, hseeds row hrow.1, congrArg NormalizedDocument.id hid⟩)
  · intro row hrow _
    have hmem := hseeds row hrow
    simp only [candidateRow, Bool.and_eq_true, Bool.or_eq_true, List.contains_iff_mem]
    refine ⟨?_, Or.inl (mem_seedIds.mpr ⟨row, hmem, rfl⟩)⟩
    have htimes : ∀ time ∈ (seedDocuments (unanalysed db) limit engine.timeWindowSeconds).map
        fun seed => seed.documentTime.micros, start ≤ time ∧
          time ≤ start + seconds engine.timeWindowSeconds := by
      intro time ht
      obtain ⟨d, hd, rfl⟩ := List.mem_map.mp ht
      obtain ⟨other, hother, rfl⟩ := mem_seedDocuments.mp hd
      exact (hwindow other ((mem_seedRows_unanalysed hl).mp hother)).2
    have hcaptured := (hwindow row ((mem_seedRows_unanalysed hl).mp hmem)).1
    have hin : row.value ∈ seedDocuments (unanalysed db) limit engine.timeWindowSeconds :=
      mem_seedDocuments.mpr ⟨row, hmem, rfl⟩
    unfold capturedWithin
    dsimp only
    generalize hts : (seedDocuments (unanalysed db) limit engine.timeWindowSeconds).map
      (fun seed => seed.documentTime.micros) = times at htimes
    have hne : times ≠ [] := by
      rw [← hts]
      exact List.ne_nil_of_mem (List.mem_map_of_mem hin)
    cases hmin : times.min? with
    | none => exact absurd (List.min?_eq_none_iff.mp hmin) hne
    | some earliest =>
      cases hmax : times.max? with
      | none => exact absurd (List.max?_eq_none_iff.mp hmax) hne
      | some latest =>
        have he := htimes earliest (List.min?_eq_some_iff.mp hmin).1
        have hla := htimes latest (List.max?_eq_some_iff.mp hmax).1
        simp only [Bool.and_eq_true, decide_eq_true_eq]
        omega

/-- After a run that sees its episodes, two ids share a correlation exactly when
their documents are grouped. -/
theorem share_iff (h : Agrees rt engine db) (hs : SeesEpisodes rt engine db limit) {x y : UUID} :
    Share (runOnce rt engine db limit) x y ↔ ∃ a ∈ saleDocuments db, ∃ b ∈ saleDocuments db,
      a.id = x ∧ b.id = y ∧ Grouped rt engine (saleDocuments db) a b := by
  constructor
  · intro hshare
    obtain ⟨c, hc, hx, hy⟩ := hshare
    obtain ⟨a, ha, rfl⟩ := document_of_member h.growing.runOnce hc hx
    obtain ⟨b, hb, rfl⟩ := document_of_member h.growing.runOnce hc hy
    rw [correlatedDocuments_runOnce h hs] at ha hb
    exact ⟨a, ha, b, hb, rfl, rfl, (share_iff_grouped h hs ha hb).mp ⟨c, hc, hx, hy⟩⟩
  · intro hgroup
    obtain ⟨a, ha, b, hb, rfl, rfl, hgroup⟩ := hgroup
    exact (share_iff_grouped h hs ha hb).mpr hgroup

theorem mem_family {members : Finset UUID} :
    members ∈ family db ↔ ∃ c, Active db c ∧ c.memberIds.toFinset = members := by
  simp [family, Active, and_assoc]

/-- Correlations that share alike have the same member sets. -/
theorem family_subset (hs : Agrees rt engine db) (hs' : Agrees rt engine db')
    (hshare : ∀ a b, Share db a b ↔ Share db' a b) : family db ⊆ family db' := by
  intro members hm
  obtain ⟨c, hc, rfl⟩ := mem_family.mp hm
  obtain ⟨a, ha⟩ := List.exists_mem_of_ne_nil _ (hs.nonempty c hc)
  obtain ⟨c', hc', ha', -⟩ := (hshare a a).mp ⟨c, hc, ha, ha⟩
  refine mem_family.mpr ⟨c', hc', Finset.ext fun id => ?_⟩
  rw [List.mem_toFinset, List.mem_toFinset]
  constructor
  · intro hid
    obtain ⟨k, hk, hka, hkid⟩ := (hshare a id).mpr ⟨c', hc', ha', hid⟩
    exact hs.growing.sound.single k c hk hc a hka ha ▸ hkid
  · intro hid
    obtain ⟨k, hk, hka, hkid⟩ := (hshare a id).mp ⟨c, hc, ha, hid⟩
    exact hs'.growing.sound.single k c' hk hc' a hka ha' ▸ hkid

/-- **Incremental correlation is batch correlation**: while every run sees its
episodes, the active correlations after a run are those of a single run over
all the documents of the window. -/
theorem incremental_equals_batch (rt : Runtime) (engine : CorrelationEngine) {steps : List Step}
    {limit : Nat} (h : AllSteps (apply rt engine) (Agreeing rt engine) {} (steps ++ [.runOnce limit]))
    (hw : OneWindow (run rt engine (steps ++ [.runOnce limit])) engine.timeWindowSeconds)
    {batchLimit : Nat}
    (hl : (documentQuery (run rt engine (steps ++ [.runOnce limit]))).length ≤ batchLimit) :
    family (run rt engine (steps ++ [.runOnce limit])) =
      family (runOnce rt engine (unanalysed (run rt engine (steps ++ [.runOnce limit])))
        batchLimit) := by
  obtain ⟨hsteps, hs, -⟩ := allSteps_append.mp h
  have hbefore := agrees_run hsteps
  have hrun : run rt engine (steps ++ [.runOnce limit]) =
      runOnce rt engine (run rt engine steps) limit := by
    rw [run, List.foldl_append, List.foldl_cons, List.foldl_nil, System.apply, run]
  rw [hrun] at hw hl ⊢
  have hafter : Agrees rt engine (runOnce rt engine (run rt engine steps) limit) :=
    hbefore.runOnce hs
  have hfresh := agrees_unanalysed hafter
  have hbatch : SeesEpisodes rt engine
      (unanalysed (runOnce rt engine (run rt engine steps) limit)) batchLimit :=
    seesEpisodes_unanalysed hl hw
  have hdocs : saleDocuments (unanalysed (runOnce rt engine (run rt engine steps) limit)) =
      saleDocuments (run rt engine steps) :=
    saleDocuments_congr (documentQuery_unanalysed.trans documentQuery_runOnce)
  have hshare : ∀ a b, Share (runOnce rt engine (run rt engine steps) limit) a b ↔
      Share (runOnce rt engine (unanalysed (runOnce rt engine (run rt engine steps) limit))
        batchLimit) a b := by
    intro a b
    rw [share_iff hbefore hs, share_iff hfresh hbatch, hdocs]
  exact Finset.Subset.antisymm (family_subset hafter (hfresh.runOnce hbatch) hshare)
    (family_subset (hfresh.runOnce hbatch) hafter fun a b => (hshare a b).symm)

/-- The baseline arrives after the ticket and the close were correlated apart. -/
def baselineArrivesLater : List Step :=
  arrival kitchenTicket ++ arrival close ++ [.runOnce 10] ++ arrival baseline

theorem baselineArrivesLater_equals_batch :
    family (run asciiRuntime {} (baselineArrivesLater ++ [.runOnce 10])) =
      family (runOnce asciiRuntime {}
        (unanalysed (run asciiRuntime {} (baselineArrivesLater ++ [.runOnce 10]))) 10) := by
  refine incremental_equals_batch asciiRuntime {} ?_ ⟨0, by decide +kernel⟩ (by decide +kernel)
  refine And.intro trivial (And.intro (show Unparsed _ _ from by decide +kernel) ?_)
  refine And.intro trivial (And.intro (show Unparsed _ _ from by decide +kernel) ?_)
  refine And.intro ?_ (And.intro trivial (And.intro (show Unparsed _ _ from by decide +kernel) ?_))
  · exact seesEpisodes_of_all (by decide +kernel) (by decide +kernel) (by decide +kernel)
  · exact And.intro (seesEpisodes_of_all (by decide +kernel) (by decide +kernel) (by decide +kernel))
      trivial

/-- The run that sees the close skips the pair of the ticket and its baseline:
the batch of the three documents is one group, the runs leave the ticket out. -/
theorem closeArrivesLater_differs_from_batch :
    AllSteps (apply asciiRuntime {}) Arrives {} closeArrivesLater ∧
      OneWindow (run asciiRuntime {} closeArrivesLater) 7200 ∧
      (documentQuery (run asciiRuntime {} closeArrivesLater)).length ≤ 10 ∧
      family (run asciiRuntime {} closeArrivesLater) ≠
        family (runOnce asciiRuntime {} (unanalysed (run asciiRuntime {} closeArrivesLater)) 10) :=
  ⟨by decide +kernel, ⟨0, by decide +kernel⟩, by decide +kernel, by decide +kernel⟩

end RetailPrintGuard.Correlation.Incremental

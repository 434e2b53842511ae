import RetailPrintGuard.Correlation.Arrivals
import RetailPrintGuard.Correlation.Blocking
import RetailPrintGuard.Correlation.Locality

/-! # The links a run sees

A run skips every pair without a seed. Where no skipped pair links the
documents of a set, or where all of them may stand together, the run groups the
set as a batch of all the documents does. -/
namespace RetailPrintGuard.Correlation.Episodes
open Relation RetailPrintGuard.Common.Python RetailPrintGuard.Common.Domain
open RetailPrintGuard.Library.ListOrder
open RetailPrintGuard.Correlation.Scoring RetailPrintGuard.Correlation.Engine
open RetailPrintGuard.Correlation.Acceptance RetailPrintGuard.Correlation.Partition
open RetailPrintGuard.Correlation.Locality RetailPrintGuard.Correlation.Blocking
open RetailPrintGuard.Correlation.CandidateBatch RetailPrintGuard.Correlation.Loading
open RetailPrintGuard.Correlation.Worker RetailPrintGuard.Correlation.Persistence
open RetailPrintGuard.Correlation.Run RetailPrintGuard.Correlation.Arrivals
open RetailPrintGuard.Db.Models

section
variable (rt : Runtime) (engine : CorrelationEngine)

/-! ## Links -/

/-- The two documents share a block, lie in the window and score enough. -/
structure Link (edge : Edge) : Prop where
  block : SharesBlock rt edge.left edge.right
  near : timeDelta edge.left edge.right ≤ engine.timeWindowSeconds * 1000000
  score : engine.minimumScore ≤ edge.score

/-- The pairs with a seed, scored. -/
def seededEdges (documents : List NormalizedDocument) (seedIds : List UUID) : List Edge :=
  edges rt engine documents (candidatePairs rt documents seedIds engine.timeWindowSeconds)

/-- What one run scores when every document is a seed. -/
def batchEdges (documents : List NormalizedDocument) : List Edge :=
  seededEdges rt engine documents (documents.map (·.id))

/-- Two documents end together when every document is a seed. -/
def Grouped (documents : List NormalizedDocument) (a b : NormalizedDocument) : Prop :=
  Together rt engine documents (batchEdges rt engine documents) a b

instance (documents : List NormalizedDocument) (a b : NormalizedDocument) :
    Decidable (Grouped rt engine documents a b) :=
  inferInstanceAs (Decidable (Together rt engine documents _ a b))

end

variable {rt : Runtime} {engine : CorrelationEngine} {documents : List NormalizedDocument}
  {seeds : List UUID} {edge : Edge}

theorem mem_linking_seededEdges (hd : DistinctIds documents) :
    edge ∈ linking engine (seededEdges rt engine documents seeds) ↔
      IsEdge rt engine documents edge ∧ Link rt engine edge ∧
        (edge.left.id ∈ seeds ∨ edge.right.id ∈ seeds) := by
  rw [mem_linking, seededEdges, mem_edges hd]
  constructor
  · intro h
    obtain ⟨⟨he, hlisted⟩, hscore⟩ := h
    have hne : edge.left ≠ edge.right := fun heq => he.lt.ne (congrArg _ heq)
    obtain ⟨hblock, hseed, hnear⟩ :=
      (listed_candidatePairs hd he.left_mem he.right_mem hne).mp hlisted
    exact ⟨he, ⟨hblock, hnear, hscore⟩, hseed⟩
  · intro h
    obtain ⟨he, ⟨hblock, hnear, hscore⟩, hseed⟩ := h
    have hne : edge.left ≠ edge.right := fun heq => he.lt.ne (congrArg _ heq)
    exact ⟨⟨he, (listed_candidatePairs hd he.left_mem he.right_mem hne).mpr
      ⟨hblock, hseed, hnear⟩⟩, hscore⟩

theorem mem_linking_batchEdges (hd : DistinctIds documents) :
    edge ∈ linking engine (batchEdges rt engine documents) ↔
      IsEdge rt engine documents edge ∧ Link rt engine edge := by
  rw [batchEdges, mem_linking_seededEdges hd]
  constructor
  · exact fun h => ⟨h.1, h.2.1⟩
  · exact fun h => ⟨h.1, h.2, Or.inl (List.mem_map_of_mem h.1.left_mem)⟩

theorem edgeList_seededEdges (hd : DistinctIds documents) :
    EdgeList rt engine documents (seededEdges rt engine documents seeds) := edgeList_edges hd

theorem edgeList_batchEdges (hd : DistinctIds documents) :
    EdgeList rt engine documents (batchEdges rt engine documents) := edgeList_edges hd

/-- Pairs of fewer documents, with fewer seeds, cross no more sets. -/
theorem uncrossed_seeded {X : UUID → Bool} {part : List NormalizedDocument} (hd : DistinctIds documents)
    (hp : DistinctIds part) (hsub : ∀ d ∈ part, d ∈ documents)
    (hX : Uncrossed engine X (batchEdges rt engine documents)) :
    Uncrossed engine X (seededEdges rt engine part seeds) := by
  intro edge he
  obtain ⟨hedge, hlink, -⟩ := (mem_linking_seededEdges hp).mp he
  exact hX edge ((mem_linking_batchEdges hd).mpr
    ⟨hedge.mono (hsub _ hedge.left_mem) (hsub _ hedge.right_mem), hlink⟩)

theorem Grouped.uncrossed {X : UUID → Bool} {a b : NormalizedDocument}
    (hX : Uncrossed engine X (batchEdges rt engine documents))
    (h : Grouped rt engine documents a b) : X a.id = X b.id :=
  hX.same h

/-! ## One group -/

/-- The documents of the set may all stand together, and its kitchen orders are
one dispatch. -/
structure OneSale (rt : Runtime) (documents : List NormalizedDocument) (X : UUID → Bool) :
    Prop where
  acceptable : acceptable rt (documents.filter fun d => X d.id) = true
  dispatch : ∀ a ∈ documents, X a.id = true → a.type = .kitchenOrder →
    ∀ b ∈ documents, X b.id = true → b.type = .kitchenOrder →
      elapsed a b ≤ seconds crossDepartmentWindowSeconds

theorem OneSale.accept {X : UUID → Bool} {part : List NormalizedDocument}
    (h : OneSale rt documents X) (hp : DistinctIds part) (hsub : ∀ d ∈ part, d ∈ documents)
    {ids : List UUID} (hids : ∀ id ∈ ids, X id = true) : accept rt part ids = true := by
  refine (accept_iff hp).mpr ((acceptable_iff.mp h.acceptable).mono ?_ ?_)
  · intro d hd
    exact List.mem_filter.mpr ⟨hsub d hd.1, hids d.id hd.2⟩
  · intro hall a ha b hb
    exact h.dispatch a (hsub a ha.1) (hids _ ha.2) (hall a ha) b (hsub b hb.1) (hids _ hb.2)
      (hall b hb)

/-! ## What a run must see -/

/-- A set of documents a run groups as a batch does. No link leaves it, and
every link in it has a seed, or else its documents are one sale the seeds join. -/
structure Episode (rt : Runtime) (engine : CorrelationEngine) (documents : List NormalizedDocument)
    (seeds : List UUID) (X : UUID → Bool) : Prop where
  closed : Uncrossed engine X (batchEdges rt engine documents)
  seen : (∀ edge ∈ linking engine (batchEdges rt engine documents), X edge.left.id = true →
      edge.left.id ∈ seeds ∨ edge.right.id ∈ seeds) ∨
    (OneSale rt documents X ∧ JoinedBy engine documents X (seededEdges rt engine documents seeds))

section
variable {X : UUID → Bool} {part : List NormalizedDocument} (hd : DistinctIds documents)
  (hp : DistinctIds part) (hsub : ∀ d ∈ part, d ∈ documents)
  (hloaded : ∀ d ∈ documents, X d.id = true → d ∈ part)
  (hclosed : Uncrossed engine X (batchEdges rt engine documents))
include hd hp hsub hloaded hclosed

/-- With a seed in every link of the set, no link is skipped. -/
theorem grouped_of_seen
    (hall : ∀ edge ∈ linking engine (batchEdges rt engine documents), X edge.left.id = true →
      edge.left.id ∈ seeds ∨ edge.right.id ∈ seeds)
    {a b : NormalizedDocument} (hxa : X a.id = true) :
    Together rt engine part (seededEdges rt engine part seeds) a b ↔
      Grouped rt engine documents a b := by
  have hcross : Uncrossed engine X (seededEdges rt engine part seeds) :=
    uncrossed_seeded hd hp hsub hclosed
  refine same_inside hp hd (edgeList_seededEdges hp) (edgeList_batchEdges hd) hcross hclosed
    ?_ (fun d hx => ⟨hsub d, fun hm => hloaded d hm hx⟩) hxa b.id
  intro edge hx
  rw [mem_linking_seededEdges hp, mem_linking_batchEdges hd]
  constructor
  · exact fun he => ⟨he.1.mono (hsub _ he.1.left_mem) (hsub _ he.1.right_mem), he.2.1⟩
  · intro he
    have hin := (mem_linking_batchEdges hd).mpr he
    have hright := (hclosed edge hin).symm.trans hx
    exact ⟨he.1.mono (hloaded _ he.1.left_mem hx) (hloaded _ he.1.right_mem hright), he.2,
      hall edge hin hx⟩

/-- One sale its seeds join is one group, in the run and in the batch. -/
theorem grouped_of_joined (hsale : OneSale rt documents X)
    (hjoined : JoinedBy engine documents X (seededEdges rt engine documents seeds))
    {a b : NormalizedDocument} (ha : a ∈ documents) (hxa : X a.id = true)
    (hb : b ∈ documents) (hxb : X b.id = true) :
    Together rt engine part (seededEdges rt engine part seeds) a b ∧
      Grouped rt engine documents a b := by
  have hcross : Uncrossed engine X (seededEdges rt engine part seeds) :=
    uncrossed_seeded hd hp hsub hclosed
  have hpart : JoinedBy engine part X (seededEdges rt engine part seeds) := by
    refine hjoined.mono (fun d hm _ => hsub d hm) fun edge he hx => ?_
    obtain ⟨hedge, hlink, hseed⟩ := (mem_linking_seededEdges hd).mp he
    have heq := hclosed edge ((mem_linking_batchEdges hd).mpr ⟨hedge, hlink⟩)
    have hboth : X edge.left.id = true ∧ X edge.right.id = true := by
      obtain hl | hr := hx
      · exact ⟨hl, heq ▸ hl⟩
      · exact ⟨heq.trans hr, hr⟩
    have hin := hedge.mono (hloaded _ hedge.left_mem hboth.1) (hloaded _ hedge.right_mem hboth.2)
    exact (mem_linking_seededEdges hp).mpr ⟨hin, hlink, hseed⟩
  have hbatch : JoinedBy engine documents X (batchEdges rt engine documents) := by
    refine hjoined.mono (fun d hm _ => hm) fun edge he _ => ?_
    obtain ⟨hedge, hlink, -⟩ := (mem_linking_seededEdges hd).mp he
    exact (mem_linking_batchEdges hd).mpr ⟨hedge, hlink⟩
  constructor
  · exact same_of_joined hpart (edgeList_seededEdges hp) hcross
      (fun ids _ hids => hsale.accept hp hsub hids) (hloaded a ha hxa) hxa (hloaded b hb hxb) hxb
  · exact same_of_joined hbatch (edgeList_batchEdges hd) hclosed
      (fun ids _ hids => hsale.accept hd (fun _ hm => hm) hids) ha hxa hb hxb

end

/-- **An episode is grouped as in a batch.** -/
theorem Episode.grouped_iff {X : UUID → Bool} {part : List NormalizedDocument}
    (h : Episode rt engine documents seeds X) (hd : DistinctIds documents) (hp : DistinctIds part)
    (hsub : ∀ d ∈ part, d ∈ documents) (hloaded : ∀ d ∈ documents, X d.id = true → d ∈ part)
    {a b : NormalizedDocument} (ha : a ∈ documents) (hxa : X a.id = true)
    (hb : b ∈ documents) (hxb : X b.id = true) :
    Together rt engine part (seededEdges rt engine part seeds) a b ↔
      Grouped rt engine documents a b := by
  obtain hall | ⟨hsale, hjoined⟩ := h.seen
  · exact grouped_of_seen hd hp hsub hloaded h.closed hall hxa
  · exact iff_of_true (grouped_of_joined hd hp hsub hloaded h.closed hsale hjoined ha hxa hb hxb).1
      (grouped_of_joined hd hp hsub hloaded h.closed hsale hjoined ha hxa hb hxb).2

end RetailPrintGuard.Correlation.Episodes

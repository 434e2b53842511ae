import RetailPrintGuard.Common.HashChain
import RetailPrintGuard.Common.Runtime
import RetailPrintGuard.Fraud.RuleVersions
import RetailPrintGuard.Library.Checks
import RetailPrintGuard.Library.HashChain

/-! # The chain of finding records

A record stores the hash of the record before it and a hash of its own fields,
and the verifier computes both again. -/
namespace RetailPrintGuard.Fraud.FindingChain
open RetailPrintGuard.Library RetailPrintGuard.Library.Checks RetailPrintGuard.Library.HashChain
open RetailPrintGuard.Library.ListOrder
open RetailPrintGuard.Common.Formats RetailPrintGuard.Common.HashChain
open RetailPrintGuard.Fraud.Findings (AlertSeverity)

/-! ## Mappings -/

/-- A `dict`: its keys are distinct, and their order, which no comparison sees,
is the sorted one. -/
structure Record where
  value : Json
  object : ∃ fields, value = .obj fields
  distinct : value.Distinct
  sorted : value.sortKeys = value

namespace Record

def get? (record : Record) (key : String) : Option Json := record.value.get? key

/-- The fields that the hash of a record covers. -/
def payload (record : Record) : Json := record.value.erase "record_hash"

def ofFields (fields : List (String × Json)) (h : (Json.obj fields).Distinct) : Record where
  value := (Json.obj fields).sortKeys
  object := ⟨_, rfl⟩
  distinct := h.sortKeys
  sorted := Json.sortKeys_idem _

/-- A mapping is the fields it has. -/
theorem ext_get? {r s : Record} (h : ∀ key, r.get? key = s.get? key) : r = s := by
  obtain ⟨_, ⟨fs, rfl⟩, hfs, hfsorted⟩ := r
  obtain ⟨_, ⟨gs, rfl⟩, hgs, hgsorted⟩ := s
  have hkeys : ∀ {fields : List (String × Json)}, (Json.obj fields).sortKeys = .obj fields →
      fields.insertionSort (fun f g => f.1 ≤ g.1) = fields := by
    intro fields hsorted
    have hfields : Json.sortFields fields = fields := Json.obj.inj hsorted
    refine List.Pairwise.insertionSort_eq ?_
    have hpairwise := Json.keys_sortFields_pairwise fields
    rwa [hfields, List.pairwise_map] at hpairwise
  have hmem : ∀ f, f ∈ fs ↔ f ∈ gs := by
    intro f
    have hfield : fs.lookup f.1 = gs.lookup f.1 := h f.1
    rw [← Json.lookup_eq_some_iff hfs.1, ← Json.lookup_eq_some_iff hgs.1, hfield]
  have hseparates : Separates (fun f g : String × Json => f.1 ≤ g.1) fs :=
    fun f hf g hg hfg hgf => List.inj_on_of_nodup_map hfs.1 hf hg (le_antisymm hfg hgf)
  have heq := insertionSort_eq_of_mem_iff hseparates hfs.1.of_map hgs.1.of_map hmem
  rw [hkeys hfsorted, hkeys hgsorted] at heq
  subst heq
  rfl

theorem get?_payload {record : Record} {key : String} (h : key ≠ "record_hash") :
    record.payload.get? key = record.get? key := Json.get?_erase h

/-- A record is its hash and what the hash covers. -/
theorem eq_of_payload {r s : Record} (hpayload : r.payload = s.payload)
    (hhash : r.get? "record_hash" = s.get? "record_hash") : r = s := by
  refine ext_get? fun key => ?_
  by_cases hkey : key = "record_hash"
  · rw [hkey, hhash]
  · rw [← get?_payload hkey, ← get?_payload hkey, hpayload]

theorem sortKeys_payload (record : Record) : record.payload.sortKeys = record.payload := by
  rw [payload, ← Json.erase_sortKeys record.distinct, record.sorted]

theorem get?_payload_self (record : Record) : record.payload.get? "record_hash" = none := by
  obtain ⟨_, ⟨fields, rfl⟩, -, -⟩ := record
  show (fields.filter fun field => field.1 != "record_hash").lookup "record_hash" = none
  rw [List.lookup_eq_none_iff]
  intro field hfield
  have hkey := List.of_mem_filter hfield
  rw [bne_iff_ne] at hkey ⊢
  exact hkey.symm

/-- The hash covers every other field. -/
theorem payload_eq {r s : Record} (h : ∀ key, key ≠ "record_hash" → r.get? key = s.get? key) :
    r.payload = s.payload := by
  have hobject : ∀ record : Record, ∃ fields, record.payload = .obj fields := by
    intro record
    obtain ⟨fields, hfields⟩ := record.object
    exact ⟨_, by rw [payload, hfields]; rfl⟩
  have heq : (⟨r.payload, hobject r, r.distinct.erase _, r.sortKeys_payload⟩ : Record) =
      ⟨s.payload, hobject s, s.distinct.erase _, s.sortKeys_payload⟩ := by
    refine ext_get? fun key => ?_
    show r.payload.get? key = s.payload.get? key
    by_cases hkey : key = "record_hash"
    · rw [hkey, get?_payload_self, get?_payload_self]
    · rw [get?_payload hkey, get?_payload hkey, h key hkey]
  exact congrArg Record.value heq

end Record

/-! ## Findings -/

/-- `FraudFinding`, with its evidence, identifiers and time as they are dumped. -/
structure Finding where
  ruleCode : String
  ruleVersion : Int
  severity : AlertSeverity
  score : Nat
  transactionId : String
  documentIds : List String
  description : String
  explanation : String
  evidence : List Record
  confidence : Nat
  openedAt : String
  score_le : score ≤ 100
  confidence_le : confidence ≤ 100

/-- `model_dump(mode="json")` without `opened_at` -/
def identityFields (finding : Finding) : List (String × Json) := [
  ("rule_code", .str finding.ruleCode),
  ("rule_version", .num finding.ruleVersion),
  ("severity", .str (RuleVersions.AlertSeverity.value finding.severity)),
  ("score", .num finding.score),
  ("transaction_id", .str finding.transactionId),
  ("document_ids", .arr (finding.documentIds.map Json.str)),
  ("description", .str finding.description),
  ("explanation", .str finding.explanation),
  ("evidence", .arr (finding.evidence.map Record.value)),
  ("confidence", .num finding.confidence)]

/-- `model_dump(mode="json")` -/
def modelDump (finding : Finding) : Json :=
  .obj (identityFields finding ++ [("opened_at", .str finding.openedAt)])

theorem modelDump_distinct (finding : Finding) : (modelDump finding).Distinct := by
  refine ⟨by simp [identityFields], Json.distinctFields_iff.mpr ?_⟩
  intro field hfield
  simp only [identityFields, List.cons_append, List.nil_append, List.mem_cons,
    List.not_mem_nil, or_false] at hfield
  obtain rfl | rfl | rfl | rfl | rfl | rfl | rfl | rfl | rfl | rfl | rfl := hfield
  case inr.inr.inr.inr.inr.inl =>
    refine Json.distinctValues_iff.mpr fun value hvalue => ?_
    obtain ⟨text, -, rfl⟩ := List.mem_map.mp hvalue
    trivial
  case inr.inr.inr.inr.inr.inr.inr.inr.inl =>
    refine Json.distinctValues_iff.mpr fun value hvalue => ?_
    obtain ⟨record, -, rfl⟩ := List.mem_map.mp hvalue
    exact record.distinct
  all_goals trivial

section
variable (fmt : Codec)

def findingFingerprint (finding : Finding) : String :=
  fmt.sha256 (Json.obj (identityFields finding)).dumps

/-- `previous_hash or ZERO_HASH` -/
def orZeroHash (previousHash : Option String) : String :=
  match previousHash with
  | some text => if text = "" then zeroHash else text
  | none => zeroHash

/-- The payload of `finding_chain_record` -/
def findingPayload (finding : Finding) (sequence : Int) (parent : String) :
    List (String × Json) := [
  ("sequence", .num sequence),
  ("previous_hash", .str parent),
  ("finding_key", .str (findingFingerprint fmt finding)),
  ("finding", modelDump finding)]

theorem findingRecord_distinct (finding : Finding) (sequence : Int) (parent recordHash : String) :
    (Json.obj (findingPayload fmt finding sequence parent ++
      [("record_hash", .str recordHash)])).Distinct := by
  refine ⟨by simp [findingPayload], Json.distinctFields_iff.mpr ?_⟩
  intro field hfield
  simp only [findingPayload, List.cons_append, List.nil_append, List.mem_cons,
    List.not_mem_nil, or_false] at hfield
  obtain rfl | rfl | rfl | rfl | rfl := hfield
  case inr.inr.inr.inl => exact modelDump_distinct finding
  all_goals trivial

/-- `finding_chain_record` -/
def findingChainRecord (finding : Finding) (sequence : Int) (previousHash : Option String) :
    Except String Record :=
  if sequence < 1 then .error "sequence must be positive"
  else do
    let parent := orZeroHash previousHash
    let payload := findingPayload fmt finding sequence parent
    let recordHash ← chainedHash fmt (.obj payload) (some parent)
    return .ofFields (payload ++ [("record_hash", .str recordHash)])
      (findingRecord_distinct fmt finding sequence parent recordHash)

/-- The text of a field that is a text. -/
def textOf : Option Json → String
  | some (.str text) => text
  | _ => ""

/-- A chain of numbered findings, each record after the hash of the one before. -/
def buildChain : Option String → List (Int × Finding) → Except String (List Record)
  | _, [] => .ok []
  | previousHash, (sequence, finding) :: rest => do
    let record ← findingChainRecord fmt finding sequence previousHash
    let records ← buildChain (some (textOf (record.get? "record_hash"))) rest
    return record :: records

/-- `verify_chain` -/
def verifyChain : Option String → List Record → Except String Bool
  | _, [] => .ok true
  | previous, record :: rest =>
    if record.get? "previous_hash" ≠ some (.str (orZeroHash previous)) then .ok false
    else do
      let hash ← chainedHash fmt record.payload previous
      if record.get? "record_hash" ≠ some (.str hash) then .ok false
      else verifyChain (some hash) rest

end

/-! ## What the verifier checks -/

def links : Links Record String where
  sequence record :=
    match record.get? "sequence" with
    | some (.num n) => n.toNat
    | _ => 0
  previous record := textOf (record.get? "previous_hash")
  hash record := textOf (record.get? "record_hash")

/-- The bytes the hash of a record is the digest of. -/
def hashedBytes (record : Record) : Bytes :=
  fromHex (links.previous record).toList ++ record.payload.dumps

section
variable (fmt : Codec)

/-- A record with the hash before it and the hash of its own fields. -/
structure Sealed (previous : Digest) (record : Record) : Prop where
  follows : record.get? "previous_hash" = some (.str previous.text)
  hash : record.get? "record_hash" = some (.str (chainedDigest fmt record.payload previous).text)

/-- Every record is sealed after the one before. -/
def Verified : Digest → List Record → Prop
  | _, [] => True
  | previous, record :: rest =>
    Sealed fmt previous record ∧ Verified (chainedDigest fmt record.payload previous) rest

/-- SHA-256 tells the bytes hashed for the records apart, and none of them is a
preimage of `ZERO_HASH`. -/
structure CollisionFree (records : List Record) : Prop where
  injective : Set.InjOn fmt.sha256 { bytes | ∃ record ∈ records, bytes = hashedBytes record }
  nonzero : ∀ record ∈ records, fmt.sha256 (hashedBytes record) ≠ zeroHash

end

section
variable {fmt : Codec}

theorem orZeroHash_digest (previous : Option Digest) :
    orZeroHash (previous.map Digest.text) = (previous.getD zeroDigest).text := by
  cases previous with
  | none => rfl
  | some digest =>
    have hne : digest.text ≠ "" := fun h => by
      have hdigest := digest.digest
      rw [h] at hdigest
      exact absurd hdigest (by decide)
    exact if_neg hne

theorem chainedHash_previous (payload : Json) (previous : Option Digest) :
    chainedHash fmt payload (previous.map Digest.text) =
      .ok (chainedDigest fmt payload (previous.getD zeroDigest)).text := by
  cases previous with
  | none =>
    have hlower : zeroHash.toLower = zeroHash := toLower_digest zeroDigest
    have hne : zeroHash ≠ "" := by decide
    have hzero := chainedHash_digest fmt payload zeroDigest
    simp only [chainedHash, zeroDigest, if_neg hne, hlower] at hzero
    exact hzero
  | some digest => exact chainedHash_digest fmt payload digest

/-- The verifier always answers, and says whether the records are sealed. -/
theorem verifyChain_spec (previous : Option Digest) (records : List Record) :
    (∃ answer, verifyChain fmt (previous.map Digest.text) records = .ok answer) ∧
      (verifyChain fmt (previous.map Digest.text) records = .ok true ↔
        Verified fmt (previous.getD zeroDigest) records) := by
  induction records generalizing previous with
  | nil => exact ⟨⟨true, rfl⟩, iff_of_true rfl trivial⟩
  | cons record rest ih =>
    simp only [verifyChain, orZeroHash_digest, chainedHash_previous, ok_bind, Verified]
    by_cases hprevious : record.get? "previous_hash" =
        some (.str (previous.getD zeroDigest).text)
    · rw [if_neg (not_not.mpr hprevious)]
      by_cases hhash : record.get? "record_hash" =
          some (.str (chainedDigest fmt record.payload (previous.getD zeroDigest)).text)
      · obtain ⟨⟨answer, hanswer⟩, hiff⟩ :=
          ih (some (chainedDigest fmt record.payload (previous.getD zeroDigest)))
        simp only [Option.map_some, Option.getD_some] at hanswer hiff
        rw [if_neg (not_not.mpr hhash)]
        exact ⟨⟨answer, hanswer⟩, hiff.trans (and_iff_right ⟨hprevious, hhash⟩).symm⟩
      · rw [if_pos hhash]
        exact ⟨⟨false, rfl⟩, iff_of_false (by simp) fun h => hhash h.1.hash⟩
    · rw [if_pos hprevious]
      exact ⟨⟨false, rfl⟩, iff_of_false (by simp) fun h => hprevious h.1.follows⟩

/-- What is not sealed is refused. -/
theorem verifyChain_eq_false {records : List Record} (h : ¬ Verified fmt zeroDigest records) :
    verifyChain fmt none records = .ok false := by
  obtain ⟨⟨answer, hanswer⟩, hiff⟩ := @verifyChain_spec fmt none records
  simp only [Option.map_none, Option.getD_none] at hanswer hiff
  cases answer with
  | false => exact hanswer
  | true => exact absurd (hiff.mp hanswer) h

theorem Sealed.links_previous {previous : Digest} {record : Record}
    (h : Sealed fmt previous record) : links.previous record = previous.text := by
  show textOf (record.get? "previous_hash") = previous.text
  rw [h.follows]
  rfl

theorem Sealed.links_hash {previous : Digest} {record : Record} (h : Sealed fmt previous record) :
    links.hash record = (chainedDigest fmt record.payload previous).text := by
  show textOf (record.get? "record_hash") = _
  rw [h.hash]
  rfl

theorem Sealed.hash_eq {previous : Digest} {record : Record} (h : Sealed fmt previous record) :
    links.hash record = fmt.sha256 (hashedBytes record) := by
  rw [h.links_hash, hashedBytes, h.links_previous]
  rfl

theorem Verified.linked {previous : Digest} {records : List Record}
    (h : Verified fmt previous records) : Linked links previous.text records := by
  induction records generalizing previous with
  | nil => trivial
  | cons record rest ih =>
    refine ⟨h.1.links_previous, ?_⟩
    rw [h.1.links_hash]
    exact ih h.2

theorem Verified.sealed {previous : Digest} {records : List Record}
    (h : Verified fmt previous records) : ∀ record ∈ records, ∃ parent, Sealed fmt parent record := by
  induction records generalizing previous with
  | nil => simp
  | cons record rest ih => exact List.forall_mem_cons.mpr ⟨⟨previous, h.1⟩, ih h.2⟩

/-- A hash tells the record that it seals. -/
theorem separated {records : List Record} (hfree : CollisionFree fmt records) :
    Separated links zeroHash fun record =>
      (∃ previous, Sealed fmt previous record) ∧ record ∈ records where
  injective r s hr hs hhash := by
    obtain ⟨⟨previous, hr⟩, hrmem⟩ := hr
    obtain ⟨⟨other, hs⟩, hsmem⟩ := hs
    have hbytes : hashedBytes r = hashedBytes s := by
      rw [hr.hash_eq, hs.hash_eq] at hhash
      exact hfree.injective ⟨r, hrmem, rfl⟩ ⟨s, hsmem, rfl⟩ hhash
    rw [hashedBytes, hashedBytes, hr.links_previous, hs.links_previous] at hbytes
    have hdumps := List.append_inj_right hbytes
      (previous.length_bytes.trans other.length_bytes.symm)
    have hpayload : r.payload = s.payload := by
      rw [← r.sortKeys_payload, ← s.sortKeys_payload]
      exact Json.dumps_injOn hdumps
    refine Record.eq_of_payload hpayload ?_
    rw [hr.links_hash, hs.links_hash] at hhash
    rw [hr.hash, hs.hash, hhash]
  fresh r hr := by
    obtain ⟨⟨previous, hr⟩, hrmem⟩ := hr
    rw [hr.hash_eq]
    exact hfree.nonzero r hrmem

/-- Sealed records that end with a hash of the chain are a part of it. -/
theorem prefix_of_verified {chain edited : List Record} (hchain : Verified fmt zeroDigest chain)
    (hedited : Verified fmt zeroDigest edited) (hfree : CollisionFree fmt (chain ++ edited))
    (hend : ∀ r ∈ edited.getLast?, ∃ s ∈ chain, r.get? "record_hash" = s.get? "record_hash") :
    edited <+: chain := by
  refine hchain.linked.prefix_of_hash (separated hfree) hedited.linked ?_ ?_
  · intro r hr
    exact ⟨(List.mem_append.mp hr).elim (hchain.sealed r) (hedited.sealed r), hr⟩
  · intro r hr
    obtain ⟨s, hs, hhash⟩ := hend r hr
    exact ⟨s, hs, congrArg textOf hhash⟩

/-! ## The chain that is built -/

theorem get?_ofFields {fields : List (String × Json)} (h : (Json.obj fields).Distinct)
    (key : String) :
    (Record.ofFields fields h).get? key = (fields.lookup key).map Json.sortKeys :=
  Json.get?_sortKeys h key

theorem chainedDigest_sortKeys (payload : Json) (previous : Digest) :
    chainedDigest fmt payload.sortKeys previous = chainedDigest fmt payload previous := by
  unfold chainedDigest
  simp only [Json.dumps_sortKeys]

/-- The record of a finding after a hash. -/
def sealedRecord (fmt : Codec) (finding : Finding) (sequence : Int) (previous : Digest) : Record :=
  let payload := findingPayload fmt finding sequence previous.text
  .ofFields (payload ++ [("record_hash", .str (chainedDigest fmt (.obj payload) previous).text)])
    (findingRecord_distinct fmt finding sequence previous.text _)

theorem findingChainRecord_eq (finding : Finding) {sequence : Int} (hpositive : 1 ≤ sequence)
    (previous : Option Digest) :
    findingChainRecord fmt finding sequence (previous.map Digest.text) =
      .ok (sealedRecord fmt finding sequence (previous.getD zeroDigest)) := by
  have hhash := chainedHash_digest fmt (.obj (findingPayload fmt finding sequence
    (previous.getD zeroDigest).text)) (previous.getD zeroDigest)
  rw [findingChainRecord, if_neg (by omega)]
  simp only [orZeroHash_digest, hhash, ok_bind]
  rfl

theorem payload_sealedRecord (finding : Finding) (sequence : Int) (previous : Digest) :
    (sealedRecord fmt finding sequence previous).payload =
      (Json.obj (findingPayload fmt finding sequence previous.text)).sortKeys :=
  Json.erase_sortKeys (findingRecord_distinct fmt finding sequence previous.text _) _

/-- A new record is sealed after the hash it is given. -/
theorem sealed_sealedRecord (finding : Finding) (sequence : Int) (previous : Digest) :
    Sealed fmt previous (sealedRecord fmt finding sequence previous) := by
  constructor
  · exact get?_ofFields (findingRecord_distinct fmt finding sequence previous.text _) _
  · rw [payload_sealedRecord, chainedDigest_sortKeys]
    exact get?_ofFields (findingRecord_distinct fmt finding sequence previous.text _) _

/-- The records of some findings after a hash. -/
def sealedChain (fmt : Codec) : Digest → List (Int × Finding) → List Record
  | _, [] => []
  | previous, (sequence, finding) :: rest =>
    let record := sealedRecord fmt finding sequence previous
    record :: sealedChain fmt (chainedDigest fmt record.payload previous) rest

theorem verified_sealedChain (payloads : List (Int × Finding)) (previous : Digest) :
    Verified fmt previous (sealedChain fmt previous payloads) := by
  induction payloads generalizing previous with
  | nil => trivial
  | cons payload rest ih => exact ⟨sealed_sealedRecord payload.2 payload.1 previous, ih _⟩

/-- Positive numbers are all the builder asks for. -/
theorem buildChain_eq {payloads : List (Int × Finding)}
    (hpositive : ∀ payload ∈ payloads, 1 ≤ payload.1) (previous : Option Digest) :
    buildChain fmt (previous.map Digest.text) payloads =
      .ok (sealedChain fmt (previous.getD zeroDigest) payloads) := by
  induction payloads generalizing previous with
  | nil => rfl
  | cons payload rest ih =>
    obtain ⟨sequence, finding⟩ := payload
    obtain ⟨hfirst, hrest⟩ := List.forall_mem_cons.mp hpositive
    have hhash : textOf ((sealedRecord fmt finding sequence (previous.getD zeroDigest)).get?
        "record_hash") = _ := (sealed_sealedRecord finding sequence _).links_hash
    have hrecords := ih hrest (some (chainedDigest fmt (sealedRecord fmt finding sequence
      (previous.getD zeroDigest)).payload (previous.getD zeroDigest)))
    rw [Option.map_some] at hrecords
    simp only [buildChain, findingChainRecord_eq finding hfirst, ok_bind, hhash, hrecords]
    rfl

end

/-! ## Tampering -/

/-- No hash was computed for a record: the one it has is a hash of the chain,
or not the hash of the record after any other. -/
def Unhashed (fmt : Codec) (chain : List Record) (record : Record) : Prop :=
  (∃ other ∈ chain, record.get? "record_hash" = other.get? "record_hash") ∨
    ∀ previous hash, chainedHash fmt record.payload previous = .ok hash →
      record.get? "record_hash" ≠ some (.str hash)

/-- What an edit that computes no hash makes of a chain. A record that is
inserted before another one may have any hash. -/
inductive Tampered (fmt : Codec) (chain : List Record) : List Record → Prop where
  | changed {before after : List Record} {record record' : Record} (key : String)
      (hchain : chain = before ++ record :: after) (hchanged : record' ≠ record)
      (hothers : ∀ other, other ≠ key → record'.get? other = record.get? other) :
      Tampered fmt chain (before ++ record' :: after)
  | deleted {edited : List Record} (hkept : edited.Sublist chain)
      (hsuffix : ¬ edited <+: chain) : Tampered fmt chain edited
  | inserted {before after : List Record} {record : Record} (hchain : chain = before ++ after)
      (hlast : after = [] → Unhashed fmt chain record) :
      Tampered fmt chain (before ++ record :: after)
  | reordered {edited : List Record} (hperm : edited.Perm chain) (hmoved : edited ≠ chain) :
      Tampered fmt chain edited
  /-- any number of edits, when the last record is left without a new hash -/
  | edited {edited : List Record} (hlast : ∀ record ∈ edited.getLast?, Unhashed fmt chain record)
      (hsuffix : ¬ edited <+: chain) : Tampered fmt chain edited

section
variable {fmt : Codec}

/-- A sealed record without a hash of its own has a hash of the chain. -/
theorem Unhashed.of_sealed {chain : List Record} {record : Record} {previous : Digest}
    (h : Unhashed fmt chain record) (hsealed : Sealed fmt previous record) :
    ∃ other ∈ chain, record.get? "record_hash" = other.get? "record_hash" := by
  obtain h | h := h
  · exact h
  · exact absurd hsealed.hash (h _ _ (chainedHash_digest fmt record.payload previous))

/-- A record that differs from a sealed one in its hash alone is not sealed. -/
theorem eq_of_sealed {r s : Record} {previous other : Digest} (hr : Sealed fmt previous r)
    (hs : Sealed fmt other s)
    (hsame : ∀ key, key ≠ "record_hash" → r.get? key = s.get? key) : r = s := by
  have hpayload := Record.payload_eq hsame
  have hprevious := hsame "previous_hash" (by decide)
  rw [hr.follows, hs.follows] at hprevious
  have htext : previous.text = other.text := Json.str.inj (Option.some.inj hprevious)
  refine Record.eq_of_payload hpayload ?_
  rw [hr.hash, hs.hash, hpayload]
  unfold chainedDigest
  simp only [htext]

theorem last_cases {before after : List Record} {record r : Record}
    (h : r ∈ (before ++ record :: after).getLast?) : (after = [] ∧ r = record) ∨ r ∈ after := by
  cases after with
  | nil =>
    rw [List.getLast?_concat, Option.mem_some_iff] at h
    exact Or.inl ⟨rfl, h.symm⟩
  | cons next rest =>
    rw [List.getLast?_append_cons, List.getLast?_cons_cons] at h
    exact Or.inr (List.mem_of_getLast? h)

theorem not_verified_of_tampered {chain edited : List Record} (h : Tampered fmt chain edited)
    (hchain : Verified fmt zeroDigest chain) (hfree : CollisionFree fmt (chain ++ edited)) :
    ¬ Verified fmt zeroDigest edited := by
  intro hedited
  have hsealed := hedited.sealed
  -- it would be a part of the chain
  have hpart := prefix_of_verified hchain hedited hfree
  cases h with
  | @changed before after record record' key hsplit hchanged hothers =>
    have hmem : record ∈ chain := by rw [hsplit]; simp
    by_cases hkey : key = "record_hash"
    · obtain ⟨_, hr⟩ := hsealed record' (by simp)
      obtain ⟨_, hs⟩ := hchain.sealed record hmem
      exact hchanged (eq_of_sealed hr hs (hkey ▸ hothers))
    · have hcut := hpart fun r hr => by
        obtain ⟨-, rfl⟩ | hin := last_cases hr
        · exact ⟨record, hmem, hothers _ fun h => hkey h.symm⟩
        · exact ⟨r, by rw [hsplit]; simp [hin], rfl⟩
      have hsame := hcut.eq_of_length (by rw [hsplit]; simp)
      rw [hsplit] at hsame
      exact hchanged (List.cons.inj (List.append_cancel_left hsame)).1
  | deleted hkept hsuffix =>
    exact hsuffix (hpart fun r hr => ⟨r, hkept.subset (List.mem_of_getLast? hr), rfl⟩)
  | @inserted before after record hsplit hlast =>
    have hcut := hpart fun r hr => by
      obtain ⟨hnil, rfl⟩ | hin := last_cases hr
      · obtain ⟨_, hr⟩ := hsealed r (by simp)
        exact (hlast hnil).of_sealed hr
      · exact ⟨r, by rw [hsplit]; exact List.mem_append_right _ hin, rfl⟩
    have hlength := hcut.length_le
    rw [hsplit] at hlength
    simp only [List.length_append, List.length_cons] at hlength
    omega
  | reordered hperm hmoved =>
    have hcut := hpart fun r hr => ⟨r, hperm.mem_iff.mp (List.mem_of_getLast? hr), rfl⟩
    exact hmoved (hcut.eq_of_length hperm.length_eq)
  | edited hlast hsuffix =>
    refine hsuffix (hpart fun r hr => ?_)
    obtain ⟨_, hr'⟩ := hsealed r (List.mem_of_getLast? hr)
    exact (hlast r hr).of_sealed hr'

/-- Every chain that is built verifies, and none that was edited without a new
hash does. -/
theorem finding_chain_tamper_evident (fmt : Codec) (payloads : List (Int × Finding))
    (hpositive : ∀ payload ∈ payloads, 1 ≤ payload.1) :
    ∃ chain, buildChain fmt none payloads = .ok chain ∧ verifyChain fmt none chain = .ok true ∧
      ∀ edited, Tampered fmt chain edited → CollisionFree fmt (chain ++ edited) →
        verifyChain fmt none edited = .ok false := by
  have hverified := @verified_sealedChain fmt payloads zeroDigest
  refine ⟨_, buildChain_eq hpositive none, (verifyChain_spec none _).2.mpr hverified, ?_⟩
  intro edited htampered hfree
  exact verifyChain_eq_false (not_verified_of_tampered htampered hverified hfree)

end

/-! ## Two records exchanged -/

section
open RetailPrintGuard.Common.Runtime (runtime)

def mismatch : Finding where
  ruleCode := "PAYMENT_TOTAL_MISMATCH"
  ruleVersion := 1
  severity := .critical
  score := 90
  transactionId := "T-1"
  documentIds := []
  description := ""
  explanation := ""
  evidence := []
  confidence := 95
  openedAt := "2026-07-01T10:00:00Z"
  score_le := by decide
  confidence_le := by decide

def twoFindings : List (Int × Finding) :=
  [(1, mismatch), (2, { mismatch with transactionId := "T-2" })]

theorem twoFindings_hashes :
    ((sealedChain runtime zeroDigest twoFindings).map fun record =>
        runtime.sha256 (hashedBytes record)).Nodup ∧
      ∀ record ∈ sealedChain runtime zeroDigest twoFindings,
        runtime.sha256 (hashedBytes record) ≠ zeroHash := by
  decide +kernel

theorem exchanged_records_detected : ∃ record next, record ≠ next ∧
    buildChain runtime none twoFindings = .ok [record, next] ∧
      verifyChain runtime none [next, record] = .ok false := by
  obtain ⟨hnodup, hnonzero⟩ := twoFindings_hashes
  have hpositive : ∀ payload ∈ twoFindings, 1 ≤ payload.1 := by decide
  obtain ⟨chain, hbuilt, -, hedits⟩ := finding_chain_tamper_evident runtime twoFindings hpositive
  obtain rfl : chain = sealedChain runtime zeroDigest twoFindings :=
    Except.ok.inj (hbuilt.symm.trans (buildChain_eq hpositive none))
  obtain ⟨record, next, htwo⟩ : ∃ record next,
      sealedChain runtime zeroDigest twoFindings = [record, next] := ⟨_, _, rfl⟩
  rw [htwo] at hbuilt hedits hnodup hnonzero
  have hne : record ≠ next := by
    rintro rfl
    simp at hnodup
  have hmem : ∀ r ∈ [record, next] ++ [next, record], r ∈ [record, next] := by simp
  refine ⟨record, next, hne, hbuilt, hedits _ (.reordered (.swap _ _ _) fun h => ?_) ⟨?_, ?_⟩⟩
  · exact hne (List.cons.inj h).1.symm
  · rintro _ ⟨r, hr, rfl⟩ _ ⟨s, hs, rfl⟩ hsame
    rw [List.inj_on_of_nodup_map hnodup (hmem r hr) (hmem s hs) hsame]
  · exact fun r hr => hnonzero r (hmem r hr)

end

end RetailPrintGuard.Fraud.FindingChain

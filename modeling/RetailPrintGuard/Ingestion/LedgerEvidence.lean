import RetailPrintGuard.Common.Runtime
import RetailPrintGuard.Ingestion.PrintProxy
import RetailPrintGuard.Ingestion.Timeline
import RetailPrintGuard.Library.HashChain

/-! # Tamper evidence of a ledger

The chain hash of an accepted record covers its canonical bytes and the hash
before it, so the last hash of an accepted ledger fixes all its records. -/
namespace RetailPrintGuard.Ingestion.LedgerEvidence
open RetailPrintGuard.Library RetailPrintGuard.Library.Checks RetailPrintGuard.Library.HashChain
open RetailPrintGuard.Common.Formats RetailPrintGuard.Common.HashChain
open RetailPrintGuard.Ingestion.Adapters RetailPrintGuard.Ingestion.PrintProxy
open RetailPrintGuard.Ingestion.Canonical (parseJsonBytes)
open RetailPrintGuard.Ingestion.Rch (SourceDirectory checked checked_eq_ok refuse refuseIf
  refuseIf_eq_ok)
open RetailPrintGuard.Ingestion.Timeline (parseJsonBytes_eq_ok length_sha256)

/-! ## Accepted records -/

/-- The fields of a record that its chain hash does not cover. -/
def unhashedFields : List String := ["previous_chain_hash", "chain_hash", "hmac_sha256"]

def textOf : Json → String
  | .str text => text
  | _ => ""

def numberOf : Json → Nat
  | .num n => n.toNat
  | _ => 0

def links : Links Json String where
  sequence record := numberOf (field record "sequence")
  previous record := textOf (field record "previous_chain_hash")
  hash record := textOf (field record "chain_hash")

/-- What the chain hash of a record is the digest of. -/
def hashedBytes (record : Json) : Bytes :=
  let encoded := (chainPayload record).dumps
  fromHex (links.previous record).toList ++ toBytes8 encoded.length ++ encoded

section
variable (fmt : Codec) (adapter : Adapter)

/-- A line that `_read_ledger` reads a record from. -/
structure Accepted (previous : String) (lineNumber : Nat) (rawLine : Bytes) (record : Json)
    (actual : String) : Prop where
  short : rawLine.length ≤ maxLedgerLineBytes
  parsed : fmt.parseJson rawLine = some record
  object : ∃ fields, record = .obj fields
  encodes : isJson record = true
  canonical : record.dumps ++ [newline] = rawLine
  schema : equalsInt fmt (field record "schema_version") ledgerSchema = true
  sequence : field record "sequence" = .num lineNumber
  positive : 1 ≤ lineNumber ∧ lineNumber ≤ maxInt
  eventId : ∃ id, requireUuid fmt (field record "event_id")
    ("ledger[" ++ toString lineNumber ++ "]." ++ "event_id") = .ok id
  timestamp : ∃ time, parseDatetime fmt (field record "timestamp")
    ("ledger[" ++ toString lineNumber ++ "]." ++ "timestamp") = .ok time
  follows : field record "previous_chain_hash" = .str previous
  payload : isJson (chainPayload record) = true
  hash : field record "chain_hash" = .str actual
  digest : isSha256 actual = true
  matched : chainHash fmt previous (chainPayload record).dumps = actual
  mac : checkMac adapter (field record "hmac_sha256")
    (fun key => hmacSha256 fmt key (fromHex actual.toList))
    ("printproxy ledger line " ++ toString lineNumber ++ " HMAC mismatch")
    "printproxy ledger requires an HMAC key for trusted ingestion" = .ok ()

/-- The keys of a `dict` are distinct. -/
def ReadsDicts : Prop := ∀ bytes value, fmt.parseJson bytes = some value → value.Distinct

/-- No two different byte strings hashed for these records have one digest. -/
def CollisionFree (records : List Json) : Prop :=
  Set.InjOn fmt.sha256 { bytes | ∃ record ∈ records, bytes = hashedBytes record }

end

section
variable {fmt : Codec} {adapter : Adapter}

theorem canonicalJson_eq_ok {value : Json} {bytes : Bytes} :
    canonicalJson value = .ok bytes ↔ isJson value = true ∧ value.dumps = bytes := by
  unfold canonicalJson
  split <;> simp [*]

theorem readRecord_eq_ok {previous : String} {lineNumber : Nat} {rawLine : Bytes} {record : Json}
    {actual : String} : readRecord fmt adapter previous lineNumber rawLine = .ok (record, actual) ↔
      Accepted fmt adapter previous lineNumber rawLine record actual := by
  simp only [readRecord, bind_eq_ok, refuseIf_eq_ok, checked_eq_ok, parseJsonBytes_eq_ok]
  constructor
  · rintro ⟨_, hshort, value, hparsed, h⟩
    obtain ⟨fields, rfl⟩ : ∃ fields, value = .obj fields := by
      cases value with
      | obj fields => exact ⟨fields, rfl⟩
      | _ => cases h
    simp only [ok_bind, bind_eq_ok, pure_eq_ok, refuseIf_eq_ok, checked_eq_ok, canonicalJson_eq_ok,
      requireInt_eq_ok, requireSha256_eq_ok] at h
    obtain ⟨_, ⟨hencodes, rfl⟩, _, hcanonical, _, hschema, sequence, ⟨hsequence, hmin, hmax⟩, _,
      hnumber, id, hid, time, htime, _, hprevious, _, ⟨hpayload, rfl⟩, actual', ⟨hhash, hdigest⟩, _,
      hmatched, _, hmac, heq⟩ := h
    obtain ⟨rfl, rfl⟩ := Prod.mk.inj heq
    obtain rfl : sequence = lineNumber := not_not.mp hnumber
    exact ⟨not_lt.mp hshort, hparsed, ⟨fields, rfl⟩, hencodes, not_not.mp hcanonical,
      by simpa using hschema, hsequence, ⟨hmin, hmax⟩, ⟨id, hid⟩, ⟨time, htime⟩,
      not_not.mp hprevious, hpayload, hhash, hdigest, not_not.mp hmatched, hmac⟩
  · intro h
    obtain ⟨fields, rfl⟩ := h.object
    obtain ⟨id, hid⟩ := h.eventId
    obtain ⟨time, htime⟩ := h.timestamp
    refine ⟨(), not_lt.mpr h.short, _, h.parsed, ?_⟩
    simp only [ok_bind, bind_eq_ok, pure_eq_ok, refuseIf_eq_ok, checked_eq_ok, canonicalJson_eq_ok,
      requireInt_eq_ok, requireSha256_eq_ok]
    exact ⟨_, ⟨h.encodes, rfl⟩, (), not_not.mpr h.canonical, (), by simp [h.schema], lineNumber,
      ⟨h.sequence, h.positive⟩, (), not_not.mpr rfl, id, hid, time, htime, (),
      not_not.mpr h.follows, _, ⟨h.payload, rfl⟩, actual, ⟨h.hash, h.digest⟩, (),
      not_not.mpr h.matched, (), h.mac, rfl⟩

/-- A record with the digest that its chain hash is. -/
structure Sealed (fmt : Codec) (record : Json) : Prop where
  distinct : record.Distinct
  sorted : record.sortKeys = record
  previous : isSha256 (links.previous record) = true
  hash : fmt.sha256 (hashedBytes record) = links.hash record

theorem Accepted.sealed (hdicts : ReadsDicts fmt) {previous : String} {lineNumber : Nat}
    {rawLine : Bytes} {record : Json} {actual : String} (hprevious : isSha256 previous = true)
    (h : Accepted fmt adapter previous lineNumber rawLine record actual) :
    Sealed fmt record ∧ links.sequence record = lineNumber ∧ links.previous record = previous ∧
      links.hash record = actual := by
  have hdistinct := hdicts rawLine record h.parsed
  have hsorted : record.sortKeys = record := by
    refine fmt.parseJson_keys record hdistinct ?_
    rw [h.canonical]
    exact h.parsed
  have hfollows : links.previous record = previous := by
    show textOf (field record "previous_chain_hash") = previous
    rw [h.follows]
    rfl
  have hactual : links.hash record = actual := by
    show textOf (field record "chain_hash") = actual
    rw [h.hash]
    rfl
  refine ⟨⟨hdistinct, hsorted, hfollows ▸ hprevious, ?_⟩, ?_, hfollows, hactual⟩
  · rw [hactual, ← h.matched, hashedBytes, hfollows]
    rfl
  · show numberOf (field record "sequence") = lineNumber
    rw [h.sequence]
    rfl

/-- The records that are read form a chain. -/
theorem readRecords_chained (hdicts : ReadsDicts fmt) {previous last : String} {n : Nat}
    {lines : List Bytes} {records : List Json} (hprevious : isSha256 previous = true)
    (h : readRecords fmt adapter previous (n + 1) lines = .ok (records, last)) :
    Chained links n previous records ∧ ∀ record ∈ records, Sealed fmt record := by
  induction lines generalizing previous n records with
  | nil =>
    obtain ⟨rfl, -⟩ := Prod.mk.inj (Except.ok.inj h)
    exact ⟨trivial, by simp⟩
  | cons rawLine rest ih =>
    simp only [readRecords, bind_eq_ok, pure_eq_ok] at h
    obtain ⟨⟨record, actual⟩, hrecord, _, -, ⟨records', last'⟩, hrest, heq⟩ := h
    obtain ⟨rfl, rfl⟩ := Prod.mk.inj heq
    have haccepted := readRecord_eq_ok.mp hrecord
    obtain ⟨hsealed, hsequence, hfollows, hactual⟩ := haccepted.sealed hdicts hprevious
    obtain ⟨hchained, hall⟩ := ih haccepted.digest hrest
    refine ⟨⟨hsequence, hfollows, ?_⟩, List.forall_mem_cons.mpr ⟨hsealed, hall⟩⟩
    rw [hactual]
    exact hchained

theorem readLedger_chained (hdicts : ReadsDicts fmt) {route : SourceDirectory} {ledger : Ledger}
    (h : readLedger fmt adapter route = .ok ledger) :
    Chained links 0 zeroHash ledger.records ∧ ∀ record ∈ ledger.records, Sealed fmt record := by
  simp only [readLedger, bind_eq_ok, pure_eq_ok] at h
  obtain ⟨headRaw, -, ledgerRaw, -, _, -, ⟨records, last⟩, hrecords, _, -, rfl⟩ := h
  exact readRecords_chained hdicts isSha256_zeroHash hrecords

/-! ## What a chain hash fixes -/

theorem length_toBytes8 (n : Nat) : (toBytes8 n).length = 8 := by simp [toBytes8]

theorem field_chainPayload {record : Json} {key : String} (hkey : key ∉ unhashedFields) :
    (chainPayload record).get? key = record.get? key := by
  simp only [unhashedFields, List.mem_cons, List.not_mem_nil, or_false, not_or] at hkey
  rw [chainPayload, Json.get?_erase hkey.2.2, Json.get?_erase hkey.2.1, Json.get?_erase hkey.1]

theorem Sealed.sorted_payload {record : Json} (h : Sealed fmt record) :
    (chainPayload record).sortKeys = chainPayload record := by
  have hprevious := h.distinct.erase "previous_chain_hash"
  have hhash := hprevious.erase "chain_hash"
  rw [chainPayload, ← Json.erase_sortKeys hhash, ← Json.erase_sortKeys hprevious,
    ← Json.erase_sortKeys h.distinct, h.sorted]

theorem hashedBytes_injective {r s : Json} (hr : Sealed fmt r) (hs : Sealed fmt s)
    (h : hashedBytes r = hashedBytes s) :
    chainPayload r = chainPayload s ∧ links.previous r = links.previous s := by
  let previous : Digest := ⟨links.previous r, hr.previous⟩
  let other : Digest := ⟨links.previous s, hs.previous⟩
  rw [hashedBytes, hashedBytes, List.append_assoc, List.append_assoc] at h
  obtain ⟨hprevious, hencoded⟩ :=
    List.append_inj h (previous.length_bytes.trans other.length_bytes.symm)
  have hpayload := List.append_inj_right hencoded
    ((length_toBytes8 _).trans (length_toBytes8 _).symm)
  refine ⟨?_, congrArg Digest.text (@Digest.bytes_injective previous other hprevious)⟩
  rw [← hr.sorted_payload, ← hs.sorted_payload]
  exact Json.dumps_injOn hpayload

/-- A chain hash binds its record, but for the hashes themselves. -/
theorem binding {records : List Json} (hfree : CollisionFree fmt records) :
    Binding links chainPayload fun record => Sealed fmt record ∧ record ∈ records := by
  intro r s ⟨hr, hrmem⟩ ⟨hs, hsmem⟩ hhash
  rw [← hr.hash, ← hs.hash] at hhash
  obtain ⟨hpayload, hprevious⟩ := hashedBytes_injective hr hs
    (hfree ⟨r, hrmem, rfl⟩ ⟨s, hsmem, rfl⟩ hhash)
  refine ⟨hpayload, ?_, hprevious⟩
  have hkey : "sequence" ∉ unhashedFields := by decide
  have hsequence := congrArg (fun payload => payload.get? "sequence") hpayload
  rw [field_chainPayload hkey, field_chainPayload hkey] at hsequence
  show numberOf (field r "sequence") = numberOf (field s "sequence")
  rw [field, field, hsequence]

/-- Two records with the same fields, but for those that are not hashed. -/
def SameFields (r s : Json) : Prop := ∀ key ∉ unhashedFields, r.get? key = s.get? key

/-- Accepted ledgers that end with one chain hash have the same events. -/
theorem ledgers_agree (hdicts : ReadsDicts fmt) {adapter adapter' : Adapter}
    {route route' : SourceDirectory} {ledger ledger' : Ledger}
    (h : readLedger fmt adapter route = .ok ledger)
    (h' : readLedger fmt adapter' route' = .ok ledger')
    (hfree : CollisionFree fmt (ledger.records ++ ledger'.records))
    (hlast : ledger.records.getLast?.map links.hash = ledger'.records.getLast?.map links.hash) :
    List.Forall₂ SameFields ledger.records ledger'.records := by
  obtain ⟨hchained, hsealed⟩ := readLedger_chained hdicts h
  obtain ⟨hchained', hsealed'⟩ := readLedger_chained hdicts h'
  have hall : ∀ record ∈ ledger.records ++ ledger'.records,
      Sealed fmt record ∧ record ∈ ledger.records ++ ledger'.records := fun record hrecord =>
    ⟨(List.mem_append.mp hrecord).elim (hsealed record) (hsealed' record), hrecord⟩
  have hpayloads := hchained.agree (binding hfree) hchained' hall hlast
  rw [← List.forall₂_eq_eq_eq, List.forall₂_map_left_iff, List.forall₂_map_right_iff] at hpayloads
  refine hpayloads.imp fun r s hpayload key hkey => ?_
  rw [← field_chainPayload hkey, hpayload, field_chainPayload hkey]

end

/-! ## A ledger with and without a key -/

section
open RetailPrintGuard.Common.Runtime (runtime readCanonical)
open RetailPrintGuard.Ingestion.Canonical (readRegularFile)

theorem runtime_readsDicts : ReadsDicts runtime := by
  intro bytes value hread
  have hread : readCanonical bytes = some value := hread
  unfold readCanonical at hread
  split at hread
  · next hex =>
    rw [← Option.some.inj hread]
    exact (Classical.choose_spec hex).1.sortKeys
  · cases hread

/-- A line of printable bytes is split off whole. -/
theorem splitlines_line {bytes : Bytes} (h : ∀ b ∈ bytes, 32 ≤ b) (rest : Bytes) :
    splitlinesKeepends (bytes ++ newline :: rest) =
      (bytes ++ [newline]) :: splitlinesKeepends rest := by
  induction bytes with
  | nil => simp [splitlinesKeepends, newline]
  | cons b bytes ih =>
    have hb : 32 ≤ b := h b List.mem_cons_self
    have hplain : ¬(b = 10 ∨ b = 13) := by
      rintro (rfl | rfl) <;> exact absurd hb (by decide)
    rw [List.cons_append, splitlinesKeepends, if_neg hplain,
      ih fun c hc => h c (List.mem_cons_of_mem _ hc)]
    · rfl
    · rintro _ rfl
      exact absurd hb (by decide)

/-! ### Two events -/

def eventId (n : Nat) : Json :=
  .str (if n = 0 then "0d9f1c3e-52f7-4c5e-8a0e-6f3b2c1d4e5f" else "7b20a4d1-9c3e-4f68-b1d5-2e8f60c7a913")

def timestamp : Json := .str "2026-07-01T10:00:00.000000Z"

/-- The event behind `n` others, without the hashes. -/
def archived (n : Nat) : List (String × Json) := [
  ("event_id", eventId n), ("schema_version", .num 1), ("sequence", .num (n + 1 : Nat)),
  ("timestamp", timestamp)]

/-- The chain hash of the first `n` events. -/
noncomputable def hashOf : Nat → String
  | 0 => zeroHash
  | n + 1 => chainHash runtime (hashOf n) (Json.obj (archived n)).dumps

def secret : Bytes := List.replicate 32 7

/-- The code of a record or of the head, where there is one. -/
def macField (code : Option String) : List (String × Json) :=
  (code.map fun text => ("hmac_sha256", Json.str text)).toList

noncomputable def recordMac (hmacKey : Option Bytes) (n : Nat) : List (String × Json) :=
  macField (hmacKey.map fun key => hmacSha256 runtime key (fromHex (hashOf (n + 1)).toList))

noncomputable def headMac (hmacKey : Option Bytes) : List (String × Json) :=
  macField (hmacKey.map (headHmac runtime 2 (hashOf 2)))

/-- The record of an event, with a code of the key or without. -/
noncomputable def recordWith (hmacKey : Option Bytes) (n : Nat) : Json := .obj (
  ("chain_hash", .str (hashOf (n + 1))) :: ("event_id", eventId n) :: recordMac hmacKey n ++
    ("previous_chain_hash", .str (hashOf n)) :: (archived n).tail)

noncomputable def headWith (hmacKey : Option Bytes) : Json := .obj (
  headMac hmacKey ++ [("last_chain_hash", .str (hashOf 2)), ("record_count", .num 2),
    ("schema_version", .num 1)])

/-- A route whose ledger has both records. -/
noncomputable def routeWith (hmacKey : Option Bytes) : SourceDirectory where
  path := "/srv/printproxy/shop"
  name := "shop"
  files := [("manifest.head.json", (headWith hmacKey).dumps ++ [newline]),
    ("manifest.jsonl", (recordWith hmacKey 0).dumps ++
      newline :: ((recordWith hmacKey 1).dumps ++ [newline]))]

/-- The adapter of a route, with a key or without. -/
def adapterWith (hmacKey : Option Bytes) (longKey : ∀ key ∈ hmacKey, 32 ≤ key.length) : Adapter where
  sourceInstanceId := "shop"
  devicesByTarget := []
  hmacKey
  requireHmac := hmacKey.isSome
  validInstance := by decide
  longKey
  positive := limits_pos

variable {hmacKey : Option Bytes} {longKey : ∀ key ∈ hmacKey, 32 ≤ key.length} {n : Nat}

theorem hashOf_digest (n : Nat) : isSha256 (hashOf n) = true := by
  cases n with
  | zero => exact isSha256_zeroHash
  | succ n => exact runtime.sha256_hex _

theorem length_hashOf (n : Nat) : (hashOf n).length = 64 := by
  cases n with
  | zero => decide
  | succ n => exact length_sha256 runtime _

theorem recordWith_distinct : (recordWith hmacKey n).Distinct := by
  cases hmacKey <;>
    exact ⟨by simp [archived, eventId, timestamp, recordMac, macField],
      by simp [archived, eventId, timestamp, recordMac, macField, Json.DistinctFields, Json.Distinct]⟩

theorem recordWith_sorted : (recordWith hmacKey n).sortKeys = recordWith hmacKey n := by
  have hvalues : ∀ f ∈ ("chain_hash", Json.str (hashOf (n + 1))) :: ("event_id", eventId n) ::
      recordMac hmacKey n ++ ("previous_chain_hash", .str (hashOf n)) :: (archived n).tail,
      Json.sortKeys f.2 = f.2 := by
    cases hmacKey <;> simp [archived, eventId, timestamp, recordMac, macField, Json.sortKeys]
  refine Json.sortKeys_obj ?_ hvalues
  cases hmacKey with
  | none =>
    show List.Pairwise (· ≤ ·) ["chain_hash", "event_id", "previous_chain_hash", "schema_version",
      "sequence", "timestamp"]
    decide
  | some key =>
    show List.Pairwise (· ≤ ·) ["chain_hash", "event_id", "hmac_sha256", "previous_chain_hash",
      "schema_version", "sequence", "timestamp"]
    decide

theorem weight_eventId (n : Nat) : (eventId n).weight = 218 := by
  unfold eventId
  split <;> decide

theorem recordWith_short (hn : n < 2) : (recordWith hmacKey n).dumps.length ≤ 4096 := by
  have hsize := Json.length_dumps_le (recordWith hmacKey n)
  have hhash := length_hashOf n
  have hnext := length_hashOf (n + 1)
  have hone : (Json.num 1).weight = 1 := by decide
  have hnumber : (Json.num (n + 1 : Nat)).weight ≤ 19 := Json.weight_num_le (by omega)
  have hid := weight_eventId n
  have htime : timestamp.weight = 164 := by decide
  cases hmacKey with
  | none =>
    have hkeys : Json.weightKeys ["chain_hash", "event_id", "previous_chain_hash",
      "schema_version", "sequence", "timestamp"] = 432 := by decide
    simp only [recordWith, recordMac, macField, archived, Option.map_none, Option.toList_none,
      List.cons_append, List.nil_append, List.tail_cons, Json.weight_obj, List.map_cons,
      List.map_nil, List.sum_cons, List.sum_nil, Json.weight_str, hhash, hnext, hone, hid, htime,
      hkeys] at hsize
    exact le_trans hsize (by omega)
  | some key =>
    have hkeys : Json.weightKeys ["chain_hash", "event_id", "hmac_sha256", "previous_chain_hash",
      "schema_version", "sequence", "timestamp"] = 502 := by decide
    have hmac : (hmacSha256 runtime key (fromHex (hashOf (n + 1)).toList)).length = 64 :=
      length_sha256 runtime _
    simp only [recordWith, recordMac, macField, archived, Option.map_some, Option.toList_some,
      List.cons_append, List.nil_append, List.tail_cons, Json.weight_obj, List.map_cons,
      List.map_nil, List.sum_cons, List.sum_nil, Json.weight_str, hhash, hnext, hone, hid, htime,
      hkeys, hmac] at hsize
    exact le_trans hsize (by omega)

theorem archived_accepted (hn : n < 2) : Accepted runtime (adapterWith hmacKey longKey) (hashOf n)
    (n + 1) ((recordWith hmacKey n).dumps ++ [newline]) (recordWith hmacKey n) (hashOf (n + 1)) := by
  have hread := runtime.parseJson_line _
    ⟨@recordWith_distinct hmacKey n, by cases hmacKey <;> rfl⟩
  rw [recordWith_sorted] at hread
  have hpayload : chainPayload (recordWith hmacKey n) = .obj (archived n) := by
    cases hmacKey <;> rfl
  exact {
    short := by
      have hshort := @recordWith_short hmacKey n hn
      rw [List.length_append, maxLedgerLineBytes, List.length_singleton]
      omega
    parsed := hread
    object := ⟨_, rfl⟩
    encodes := by cases hmacKey <;> rfl
    canonical := rfl
    schema := by cases hmacKey <;> rfl
    sequence := by cases hmacKey <;> rfl
    positive := by
      unfold maxInt
      omega
    eventId := by
      rw [show field (recordWith hmacKey n) "event_id" = eventId n by cases hmacKey <;> rfl]
      obtain rfl | rfl : n = 0 ∨ n = 1 := by omega
      · exact ⟨"0d9f1c3e-52f7-4c5e-8a0e-6f3b2c1d4e5f", by decide +kernel⟩
      · exact ⟨"7b20a4d1-9c3e-4f68-b1d5-2e8f60c7a913", by decide +kernel⟩
    timestamp := by
      rw [show field (recordWith hmacKey n) "timestamp" = timestamp by cases hmacKey <;> rfl]
      obtain rfl | rfl : n = 0 ∨ n = 1 := by omega
      · exact ⟨1782900000000000, by decide +kernel⟩
      · exact ⟨1782900000000000, by decide +kernel⟩
    follows := by cases hmacKey <;> rfl
    payload := by
      rw [hpayload]
      rfl
    hash := by cases hmacKey <;> rfl
    digest := hashOf_digest _
    matched := by rw [hpayload, hashOf]
    mac := by
      cases hmacKey with
      | none => exact refuseIf_eq_ok.mpr fun h => h.elim Bool.false_ne_true fun h => h rfl
      | some key => exact refuseIf_eq_ok.mpr (not_not.mpr rfl) }

theorem headWith_checked : checkHead runtime (adapterWith hmacKey longKey)
    ((headWith hmacKey).dumps ++ [newline]) [recordWith hmacKey 0, recordWith hmacKey 1]
    (hashOf 2) = .ok () := by
  have hdistinct : (headWith hmacKey).Distinct := by
    cases hmacKey <;>
      exact ⟨by simp [headMac, macField],
        by simp [headMac, macField, Json.DistinctFields, Json.Distinct]⟩
  have hsorted : (headWith hmacKey).sortKeys = headWith hmacKey := by
    have hvalues : ∀ f ∈ headMac hmacKey ++ [("last_chain_hash", Json.str (hashOf 2)),
        ("record_count", .num 2), ("schema_version", .num 1)], Json.sortKeys f.2 = f.2 := by
      cases hmacKey <;> simp [headMac, macField, Json.sortKeys]
    refine Json.sortKeys_obj ?_ hvalues
    cases hmacKey with
    | none =>
      show List.Pairwise (· ≤ ·) ["last_chain_hash", "record_count", "schema_version"]
      decide
    | some key =>
      show List.Pairwise (· ≤ ·) ["hmac_sha256", "last_chain_hash", "record_count", "schema_version"]
      decide
  have hread := runtime.parseJson_line _ ⟨hdistinct, by cases hmacKey <;> rfl⟩
  rw [hsorted] at hread
  simp only [checkHead, bind_eq_ok, checked_eq_ok, parseJsonBytes_eq_ok]
  refine ⟨_, hread, ?_⟩
  simp only [headWith, canonicalJson_eq_ok, bind_eq_ok, checked_eq_ok, requireInt_eq_ok,
    requireSha256_eq_ok]
  refine ⟨_, ⟨by cases hmacKey <;> rfl, rfl⟩, (),
    refuseIf_eq_ok.mpr (not_not.mpr rfl), (), refuseIf_eq_ok.mpr ?_, 2, ⟨?_, by decide⟩, hashOf 2,
    ⟨?_, hashOf_digest 2⟩, (), ?_, ?_⟩
  · have hschema : ¬equalsInt runtime (.num 1) ledgerSchema = false := by decide
    cases hmacKey <;> exact hschema
  · cases hmacKey <;> rfl
  · cases hmacKey <;> rfl
  · exact raiseIf_eq_ok.mpr (by simp)
  · cases hmacKey with
    | none => exact refuseIf_eq_ok.mpr fun h => h.elim Bool.false_ne_true fun h => h rfl
    | some key => exact refuseIf_eq_ok.mpr (not_not.mpr rfl)

theorem headWith_short : (headWith hmacKey).dumps.length ≤ 4096 := by
  have hsize := Json.length_dumps_le (headWith hmacKey)
  have hhash := length_hashOf 2
  have hone : (Json.num 1).weight = 1 := by decide
  have htwo : (Json.num 2).weight = 1 := by decide
  cases hmacKey with
  | none =>
    have hkeys : Json.weightKeys ["last_chain_hash", "record_count", "schema_version"] = 258 := by
      decide
    simp only [headWith, headMac, macField, Option.map_none, Option.toList_none, List.nil_append,
      Json.weight_obj, List.map_cons, List.map_nil, List.sum_cons, List.sum_nil, Json.weight_str,
      hhash, hone, htwo, hkeys] at hsize
    exact le_trans hsize (by decide)
  | some key =>
    have hkeys : Json.weightKeys ["hmac_sha256", "last_chain_hash", "record_count",
      "schema_version"] = 328 := by decide
    have hmac : (headHmac runtime 2 (hashOf 2) key).length = 64 := length_sha256 runtime _
    simp only [headWith, headMac, macField, Option.map_some, Option.toList_some, List.nil_append,
      List.cons_append, Json.weight_obj, List.map_cons, List.map_nil, List.sum_cons, List.sum_nil,
      Json.weight_str, hhash, hone, htwo, hkeys, hmac] at hsize
    exact le_trans hsize (by decide)

/-- The ledger of both records is accepted. -/
theorem routeWith_read : ∃ integrity headRaw,
    readLedger runtime (adapterWith hmacKey longKey) (routeWith hmacKey) =
      .ok ⟨[recordWith hmacKey 0, recordWith hmacKey 1], integrity, headRaw⟩ := by
  have hlines : splitlinesKeepends ((recordWith hmacKey 0).dumps ++
      newline :: ((recordWith hmacKey 1).dumps ++ [newline])) =
      [(recordWith hmacKey 0).dumps ++ [newline], (recordWith hmacKey 1).dumps ++ [newline]] := by
    rw [splitlines_line (Json.dumps_ge _), splitlines_line (Json.dumps_ge _)]
    rfl
  have hrecords : readRecords runtime (adapterWith hmacKey longKey) zeroHash 1
      (splitlinesKeepends ((recordWith hmacKey 0).dumps ++
        newline :: ((recordWith hmacKey 1).dumps ++ [newline]))) =
        .ok ([recordWith hmacKey 0, recordWith hmacKey 1], hashOf 2) := by
    rw [hlines]
    simp only [readRecords, bind_eq_ok, pure_eq_ok]
    exact ⟨_, readRecord_eq_ok.mpr (@archived_accepted _ _ 0 (by decide)), (),
      refuseIf_eq_ok.mpr (show ¬1000000 < 1 by decide), _,
      ⟨_, readRecord_eq_ok.mpr (@archived_accepted _ _ 1 (by decide)), (),
        refuseIf_eq_ok.mpr (show ¬1000000 < 2 by decide), _, rfl, rfl⟩, rfl⟩
  have hfirst := @recordWith_short hmacKey 0 (by decide)
  have hsecond := @recordWith_short hmacKey 1 (by decide)
  have hhead := @headWith_short hmacKey
  refine ⟨if (adapterWith hmacKey longKey).hmacKey = none then
      "SHA256_HASH_CHAIN_VALIDATED_NO_HMAC_CONFIGURED" else "HMAC_SHA256_AND_HASH_CHAIN_VALIDATED",
    (headWith hmacKey).dumps ++ [newline], ?_⟩
  simp only [readLedger, bind_eq_ok, pure_eq_ok, checked_eq_ok]
  refine ⟨_, bind_eq_ok.mpr ⟨(), raiseIf_eq_ok.mpr ?_, rfl⟩, _,
    bind_eq_ok.mpr ⟨(), raiseIf_eq_ok.mpr ?_, rfl⟩, (), raiseIf_eq_ok.mpr ?_, _, hrecords, (),
    headWith_checked, rfl⟩
  · rw [List.length_append, List.length_singleton, maxHeadBytes]
    omega
  · show ¬256 * 1024 * 1024 < _
    rw [List.length_append, List.length_cons, List.length_append, List.length_singleton]
    omega
  · refine fun h => h.2 ?_
    rw [List.getLast?_append, List.getLast?_cons, List.getLast?_concat]
    rfl

/-- The digests of the two events differ. -/
theorem hashOf_ne : hashOf 1 ≠ hashOf 2 := by decide +kernel

theorem hash_hashedBytes (n : Nat) : runtime.sha256 (hashedBytes (recordWith hmacKey n)) =
    hashOf (n + 1) := by
  cases hmacKey <;> rfl

theorem hashedBytes_recordWith (n : Nat) :
    hashedBytes (recordWith hmacKey n) = hashedBytes (recordWith none n) := by
  cases hmacKey <;> rfl

/-- The ledgers of the two events with a key and without it have the same events. -/
theorem keyed_and_plain_agree : ∃ ledger ledger', ledger.records.length = 2 ∧
    ledger.records ≠ ledger'.records ∧
    readLedger runtime (adapterWith (some secret) (by rintro _ ⟨⟩; decide))
      (routeWith (some secret)) = .ok ledger ∧
    readLedger runtime (adapterWith none (by rintro _ ⟨⟩)) (routeWith none) = .ok ledger' ∧
    List.Forall₂ SameFields ledger.records ledger'.records := by
  obtain ⟨integrity, headRaw, hkeyed⟩ := @routeWith_read (some secret) (by rintro _ ⟨⟩; decide)
  obtain ⟨integrity', headRaw', hplain⟩ := @routeWith_read none (by rintro _ ⟨⟩)
  refine ⟨_, _, rfl, ?_, hkeyed, hplain, ledgers_agree runtime_readsDicts hkeyed hplain ?_ rfl⟩
  · intro h
    have hcode := congrArg (fun record => field record "hmac_sha256") (List.cons.inj h).1
    cases hcode
  · have hnumber : ∀ record ∈ [recordWith (some secret) 0, recordWith (some secret) 1] ++
        [recordWith none 0, recordWith none 1],
        ∃ n < 2, hashedBytes record = hashedBytes (recordWith none n) := by
      intro record hrecord
      simp only [List.cons_append, List.nil_append, List.mem_cons, List.not_mem_nil, or_false] at hrecord
      obtain rfl | rfl | rfl | rfl := hrecord
      · exact ⟨0, by decide, hashedBytes_recordWith 0⟩
      · exact ⟨1, by decide, hashedBytes_recordWith 1⟩
      · exact ⟨0, by decide, rfl⟩
      · exact ⟨1, by decide, rfl⟩
    rintro _ ⟨record, hrecord, rfl⟩ _ ⟨other, hother, rfl⟩ hsame
    obtain ⟨n, hn, hbytes⟩ := hnumber record hrecord
    obtain ⟨k, hk, hbytes'⟩ := hnumber other hother
    rw [hbytes, hbytes', hash_hashedBytes, hash_hashedBytes] at hsame
    rw [hbytes, hbytes']
    obtain rfl | rfl : n = 0 ∨ n = 1 := by omega
    · obtain rfl | rfl : k = 0 ∨ k = 1 := by omega
      · rfl
      · exact absurd hsame hashOf_ne
    · obtain rfl | rfl : k = 0 ∨ k = 1 := by omega
      · exact absurd hsame.symm hashOf_ne
      · rfl

end

end RetailPrintGuard.Ingestion.LedgerEvidence

import RetailPrintGuard.Proxy.Spool

/-! # The documents of a job

No document of a job has a key twice or is nested deep, so that what is read back
is what was written, with its keys sorted. -/
namespace RetailPrintGuard.Proxy.Documents
open RetailPrintGuard.Library RetailPrintGuard.Common.Formats RetailPrintGuard.Proxy.Spool

section
variable {fmt : Codec} {descriptor : SessionDescriptor} {previous : Option String}
  {event : CaptureEvent} {spool : SessionSpool} {closing : Closing}

theorem distinct_optionalText (text : Option String) : (optionalText text).Distinct := by
  cases text <;> simp [optionalText, Json.Distinct]

theorem plain_optionalText (text : Option String) (n : Nat) : (optionalText text).plain n = true := by
  cases text <;> cases n <;> rfl

theorem countDocument_distinct (counts : ByDirection Nat) : (countDocument counts).Distinct := by
  refine ⟨by simp, ?_⟩
  simp [Json.DistinctFields, Json.Distinct]

theorem endpointDocument_distinct (source : String × Int) :
    (endpointDocument source).Distinct := by
  refine ⟨by simp, ?_⟩
  simp [Json.DistinctFields, Json.Distinct]

theorem descriptorDocument_distinct (descriptor : SessionDescriptor) :
    (descriptorDocument descriptor).Distinct := by
  refine ⟨by simp, ?_⟩
  simp [Json.DistinctFields, Json.Distinct, endpointDocument_distinct]

theorem sessionDocument_distinct (descriptor : SessionDescriptor) :
    (sessionDocument (descriptorDocument descriptor)).Distinct := by
  refine ⟨by simp, ?_⟩
  simp [Json.DistinctFields, Json.Distinct, descriptorDocument_distinct]

theorem sessionDocument_readable (descriptor : SessionDescriptor) :
    Readable (sessionDocument (descriptorDocument descriptor)) :=
  ⟨sessionDocument_distinct descriptor, rfl⟩

theorem sessionDocument_sortKeys (session : Json) :
    (sessionDocument session.sortKeys).sortKeys = (sessionDocument session).sortKeys := by
  simp [sessionDocument, Json.sortKeys, Json.sortFields, Json.sortKeys_idem]

theorem eventBody_distinct : (eventBody fmt descriptor previous event).Distinct := by
  refine ⟨by simp, ?_⟩
  simp [Json.DistinctFields, Json.Distinct, distinct_optionalText]

theorem timelineEntry_distinct : (timelineEntry fmt descriptor previous event).Distinct := by
  refine ⟨by simp, ?_⟩
  simp [Json.DistinctFields, Json.Distinct, distinct_optionalText]

theorem eventBody_plain : (eventBody fmt descriptor previous event).plain 8 = true := by
  simp [eventBody, Json.plain, plain_optionalText]

theorem timelineEntry_readable : Readable (timelineEntry fmt descriptor previous event) := by
  refine ⟨timelineEntry_distinct, ?_⟩
  simp [timelineEntry, eventBody, Json.plain, plain_optionalText]

theorem fileFacts_distinct (name : String) (content : Bytes) :
    (fileFacts fmt name content).Distinct := by
  refine ⟨by simp, ?_⟩
  simp [Json.DistinctFields, Json.Distinct]

theorem filesDocument_distinct (raw : ByDirection Bytes) (timeline session : Bytes) :
    (filesDocument fmt raw timeline session).Distinct := by
  refine ⟨by simp, ?_⟩
  simp [Json.DistinctFields, fileFacts_distinct]

theorem manifest_distinct : (spool.manifest fmt closing).Distinct := by
  refine ⟨by simp, ?_⟩
  simp [Json.DistinctFields, Json.Distinct, descriptorDocument_distinct, countDocument_distinct,
    filesDocument_distinct, distinct_optionalText, Json.distinctValues_iff]

theorem manifest_readable : Readable (spool.manifest fmt closing) := by
  refine ⟨manifest_distinct, ?_⟩
  simp [SessionSpool.manifest, descriptorDocument, endpointDocument, countDocument, filesDocument,
    fileFacts, Json.plain, plain_optionalText, List.all_map]

theorem readyDocument_distinct (jobId digest : String) :
    (readyDocument jobId digest).Distinct := by
  refine ⟨by simp, ?_⟩
  simp [Json.DistinctFields, Json.Distinct]

theorem readyDocument_readable (jobId digest : String) : Readable (readyDocument jobId digest) :=
  ⟨readyDocument_distinct jobId digest, rfl⟩

/-- A manifest is read back. -/
theorem jsonLoads_manifest (closing : Closing) :
    fmt.jsonLoads (finalize fmt spool closing).manifest =
      some (spool.manifest fmt closing).sortKeys :=
  fmt.jsonLoads_line manifest_readable

end

end RetailPrintGuard.Proxy.Documents

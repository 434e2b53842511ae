import RetailPrintGuard.Parser.RchSegmentation

/-! # What lies inside a document

A document is complete when its close was observed. What the framing rejected
between its first and its last byte is told by the warnings of the document. -/
namespace RetailPrintGuard.Parser.RchIntegrity
open RetailPrintGuard.Library.Checks
open RetailPrintGuard.Parser.Documents RetailPrintGuard.Parser.Rch
open RetailPrintGuard.Parser.RchAccounting RetailPrintGuard.Parser.RchFilling
open RetailPrintGuard.Parser.RchFraming RetailPrintGuard.Parser.RchSegmentation
open RetailPrintGuard.Parser.RchSessions

variable {context : JobContext} {request response : Bytes} {documents : List NormalizedDocument}
variable {document : NormalizedDocument} {stretches : List Stretch} {stretch : Stretch}
variable {offset frameId i : Nat} {frame : Frame}

/-- A frame with a valid block check covers a byte. -/
def Framed (request : Bytes) (i : Nat) : Prop :=
  ∃ frame ∈ (frameStream request).frames,
    frame.bccValid = true ∧ frame.offset ≤ i ∧ i < frame.offset + frame.raw.length

/-- Between two offsets there are valid frames and ACKs only. -/
def Intact (request : Bytes) (start stop : Nat) : Prop :=
  ∀ i, start ≤ i → i < stop → Framed request i ∨ request[i]? = some RchFraming.ack

/-- A byte is in a valid frame, is an ACK, or lies in bytes an issue reports. -/
def Told (request : Bytes) (stretches : List Stretch) (warnings : List String) (i : Nat) : Prop :=
  Framed request i ∨
    ∃ offset stretch, (offset, stretch) ∈ place 0 stretches ∧
      offset ≤ i ∧ i < offset + stretch.bytes.length ∧
      (stretch = .ack ∨ ∃ text, stretch.issue offset = some text ∧
        (text ∈ warnings ∨ "issue_limit_exceeded" ∈ warnings))

/-! ## The stretches up to a frame that is kept -/

/-- A frame that is read before the end of a kept one is kept as well. -/
theorem kept_of_before {frames : List Frame} {n : Nat} {last : Frame}
    (hpair : frames.Pairwise Before) (hlast : last ∈ frames.take n) (hin : frame ∈ frames)
    (hbefore : frame.offset < last.offset + last.raw.length) : frame ∈ frames.take n := by
  rw [← List.take_append_drop n frames] at hpair hin
  refine (List.mem_append.mp hin).resolve_right fun hdropped => ?_
  have hlate := ((List.pairwise_append.mp hpair).2.2 last hlast frame hdropped).2
  omega

/-- A frame that fails its block check is reported. -/
theorem issue_of_invalid (h : stretch.frame frameId offset = some frame)
    (hinvalid : frame.bccValid = false) : (stretch.issue offset).isSome = true := by
  cases stretch with
  | ack | noise | stray | unfinished => simp [Stretch.frame] at h
  | envelope e =>
    obtain ⟨expected, hexpected, rfl⟩ := Option.map_eq_some_iff.mp h
    have hinvalid : e.valid = false := hinvalid
    simp [Stretch.issue, hexpected, hinvalid]

/-- The issues of the stretches are reported, up to the limit. -/
theorem issue_reported (h : Accounts request stretches) {text : String}
    (hin : text ∈ issuesFrom 0 stretches) :
    text ∈ (frameStream request).issues ∨
      "issue_limit_exceeded" ∈ (frameStream request).issues := by
  rw [h.issues]
  by_cases hfull : maxIssues ≤ (issuesFrom 0 stretches).length
  · rw [if_pos hfull]
    exact Or.inr (List.mem_append_left _ (List.mem_append_right _ (List.mem_singleton_self _)))
  · rw [if_neg hfull]
    exact Or.inl (List.mem_append_left _ hin)

/-- Up to the end of a kept frame every byte is accounted for. -/
theorem told_before (h : Accounts request stretches) {last : Frame} {warnings : List String}
    (hlast : last ∈ (frameStream request).frames) (hi : i < last.offset + last.raw.length)
    (hwarned : ∀ text ∈ (frameStream request).issues, text ∈ warnings) :
    Told request stretches warnings i := by
  have hkept := hlast
  rw [h.frames] at hkept
  obtain ⟨-, ending, hending, hraw, -⟩ := mem_framesFrom (List.mem_of_mem_take hkept)
  have hend := end_of_mem_place hending
  rw [← hraw] at hend
  obtain ⟨offset, stretch, hplace, hle, hlt⟩ :=
    @exists_mem_place 0 stretches i (Nat.zero_le i) (by rw [Nat.zero_add]; omega)
  have hreported : (stretch.issue offset).isSome = true → Told request stretches warnings i := by
    intro hissue
    obtain ⟨text, htext⟩ := Option.isSome_iff_exists.mp hissue
    have hissue := issue_reported h (issue_mem_issuesFrom hplace htext)
    exact Or.inr ⟨offset, stretch, hplace, hle, hlt, Or.inr ⟨text, htext,
      hissue.imp (hwarned _) (hwarned _)⟩⟩
  obtain hack | hframe | hissue := @stretch_cases offset stretch
  · exact Or.inr ⟨offset, stretch, hplace, hle, hlt, Or.inl hack⟩
  · obtain ⟨frame, hmem, n, hsome⟩ := @exists_frame_of_mem_place 0 1 _ _ _ hplace hframe
    obtain ⟨-, hoffset, hbytes, -⟩ := frame_eq_some hsome
    cases hvalid : frame.bccValid with
    | false => exact hreported (issue_of_invalid hsome hvalid)
    | true =>
      have hbefore := kept_of_before pairwise_framesFrom hkept hmem (by omega)
      rw [← h.frames] at hbefore
      exact Or.inl ⟨frame, hbefore, hvalid, by omega, by rw [hoffset, hbytes]; exact hlt⟩
  · exact hreported hissue

/-! ## The documents -/

theorem framed_cancellation {origin : RequestSource} {cancelled : Frame} {start stop : Nat}
    (hin : cancelled ∈ commands request)
    (hstart : startOffset (cancellationDocument origin cancelled) = some start)
    (hstop : endOffset (cancellationDocument origin cancelled) = some stop)
    (hle : start ≤ i) (hlt : i < stop) : Framed request i := by
  obtain ⟨hkept, hcommand⟩ := List.mem_filter.mp hin
  simp only [RchCounters.isCommand, Bool.and_eq_true] at hcommand
  obtain rfl : cancelled.offset = start := Option.some.inj hstart
  obtain rfl : cancelled.offset + cancelled.raw.length = stop := Option.some.inj hstop
  exact ⟨cancelled, hkept, hcommand.2, hle, hlt⟩

/-- What lies inside a document is told by its warnings. -/
theorem told_document (hparsed : parseRch context request response = .ok documents)
    (hin : document ∈ documents) (h : Accounts request stretches) {start stop : Nat}
    (hstart : startOffset document = some start) (hstop : endOffset document = some stop)
    (hle : start ≤ i) (hlt : i < stop) : Told request stretches document.warnings i := by
  obtain ⟨pass, finished, -, hparses⟩ := parseRch_spec hparsed
  rcases document_cases hparses hin with ⟨cancelled, hcommand, rfl⟩ | ⟨entry, hentry, hof⟩ |
    rfl | rfl
  · exact Or.inl (framed_cancellation hcommand hstart hstop hle hlt)
  · have hdocumented := documented_runsOf ((pairwise_commands request).imp And.left)
    have hsegment := hdocumented.infixes entry hentry
    have hlast := hsegment.subset (List.getLast_mem (List.cons_ne_nil entry.1.first entry.1.more))
    have hend : entry.1.stop = stop := Option.some.inj (hof.stop.symm.trans hstop)
    refine told_before h (List.mem_of_mem_filter hlast) (hlt.trans_eq hend.symm) ?_
    exact fun text htext => hof.warned text (List.mem_append_right _ htext)
  · cases hstart
  · cases hstart

/-- A document that tells no issue is intact. -/
theorem intact_of_told {warnings : List String} {start stop : Nat}
    (h : Accounts request stretches)
    (htold : ∀ i, start ≤ i → i < stop → Told request stretches warnings i)
    (hquiet : warnings = []) : Intact request start stop := by
  intro i hle hlt
  rcases htold i hle hlt with hframed | ⟨offset, stretch, hplace, hfrom, hto, rfl | htext⟩
  · exact Or.inl hframed
  · obtain rfl : i = offset := by
      have hone : Stretch.ack.bytes.length = 1 := rfl
      omega
    have hslice := congrArg (·[0]?) (slice_of_mem_place hplace).2
    have hbyte : (joined stretches)[i]? = some RchFraming.ack := by
      simpa [Stretch.bytes, List.getElem?_take, List.getElem?_drop] using hslice
    rw [← h.split, List.getElem?_take] at hbyte
    exact Or.inr (Option.ite_none_right_eq_some.mp hbyte).2
  · obtain ⟨text, -, hin⟩ := htext
    simp [hquiet] at hin

/-- Every byte between the ends of a document lies in a valid frame, is an ACK
or lies in bytes an issue reports that the document warns of. -/
theorem documents_told (h : parseRch context request response = .ok documents) :
    ∃ stretches, Accounts request stretches ∧ ∀ document ∈ documents, ∀ start stop,
      startOffset document = some start → endOffset document = some stop →
        (∀ i, start ≤ i → i < stop → Told request stretches document.warnings i) ∧
          (document.warnings = [] → Intact request start stop) := by
  obtain ⟨stretches, haccounts⟩ := exists_accounts request
  refine ⟨stretches, haccounts, fun document hin start stop hstart hstop => ?_⟩
  have htold : ∀ i, start ≤ i → i < stop → Told request stretches document.warnings i :=
    fun i hle hlt => told_document h hin haccounts hstart hstop hle hlt
  exact ⟨htold, intact_of_told haccounts htold⟩

/-! ## A complete document with noise inside -/

def managementFrame : SentFrame where
  toBlock := { openBlock with data := [61, 111], length := by decide }
  bccHigh := 50
  bccLow := 56
  checked := by decide

/-- Two `=o` commands with a byte between them. -/
def noisyRequest : Bytes :=
  encodeAll [.frame managementFrame] ++ [0x41] ++ encodeAll [.frame managementFrame]

theorem noisyRequest_parsed : ∃ document, parseRch sampleContext noisyRequest [] = .ok [document] ∧
    document.complete = true ∧ startOffset document = some 0 ∧ endOffset document = some 27 := by
  have hplaces : (parseRch sampleContext noisyRequest []).map (·.map fun document =>
      (document.complete, startOffset document, endOffset document)) =
      .ok [(true, some 0, some 27)] := by
    decide +kernel
  obtain ⟨documents, hparsed, hmap⟩ := map_eq_ok.mp hplaces
  obtain ⟨document, rest, rfl, hdocument, hnil⟩ := List.map_eq_cons_iff.mp hmap
  obtain rfl := List.map_eq_nil_iff.mp hnil
  simp only [Prod.mk.injEq] at hdocument
  exact ⟨document, hparsed, hdocument⟩

theorem documents_told_noisy : ∃ document stretches,
    parseRch sampleContext noisyRequest [] = .ok [document] ∧ Accounts noisyRequest stretches ∧
      ∀ i < 27, Told noisyRequest stretches document.warnings i := by
  obtain ⟨document, hparsed, -, hstart, hstop⟩ := noisyRequest_parsed
  obtain ⟨stretches, haccounts, htold⟩ := documents_told hparsed
  exact ⟨document, stretches, hparsed, haccounts, fun i hi =>
    (htold document List.mem_cons_self 0 27 hstart hstop).1 i (Nat.zero_le i) hi⟩

/-- The noise is in no frame and is no ACK. -/
theorem noise_inside_complete : ∃ document,
    parseRch sampleContext noisyRequest [] = .ok [document] ∧ document.complete = true ∧
      startOffset document = some 0 ∧ endOffset document = some 27 ∧
      ¬ Intact noisyRequest 0 27 := by
  obtain ⟨document, hparsed, hplace⟩ := noisyRequest_parsed
  refine ⟨document, hparsed, hplace.1, hplace.2.1, hplace.2.2, fun hintact => ?_⟩
  have hunframed : ∀ frame ∈ (frameStream noisyRequest).frames,
      ¬ (frame.offset ≤ 13 ∧ 13 < frame.offset + frame.raw.length) := by
    decide +kernel
  have hbyte : noisyRequest[13]? = some 0x41 := by decide
  rcases hintact 13 (by omega) (by omega) with ⟨frame, hin, -, hcovers⟩ | hack
  · exact hunframed frame hin hcovers
  · rw [hbyte] at hack
    simp [RchFraming.ack] at hack

end RetailPrintGuard.Parser.RchIntegrity

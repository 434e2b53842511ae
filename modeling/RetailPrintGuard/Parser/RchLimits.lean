import RetailPrintGuard.Parser.RchIntegrity

/-! # What the limits drop

Frames past the frame limit and documents past the document limit are dropped;
whether a returned document tells of anything depends on the ones that are kept. -/
namespace RetailPrintGuard.Parser.RchLimits
open RetailPrintGuard.Common.PrintedText (Text)
open RetailPrintGuard.Library.Checks RetailPrintGuard.Library.Regex
open RetailPrintGuard.Parser.Documents RetailPrintGuard.Parser.Rch
open RetailPrintGuard.Parser.RchAccounting RetailPrintGuard.Parser.RchCounters
open RetailPrintGuard.Parser.RchFraming RetailPrintGuard.Parser.RchIntegrity
open RetailPrintGuard.Parser.RchPatterns RetailPrintGuard.Parser.RchSegmentation
open RetailPrintGuard.Parser.RchSessions

/-! ## What is dropped -/

/-- More frames are read than are kept. -/
def FramesDropped (payload : Bytes) : Prop :=
  ∃ stretches, Accounts payload stretches ∧ maxFrames < stretches.countP Stretch.isFrame

/-- The documents of a payload without the limit. -/
def documentCount (request response : Bytes) : Nat :=
  ((commands request).filter isCancellation).length + (runsOf (commands request)).length +
    if response.isEmpty then 0 else 1

def Dropped (request response : Bytes) : Prop :=
  FramesDropped request ∨ FramesDropped response ∨ maxDocuments < documentCount request response

/-- A returned document carries a warning or is incomplete. -/
def Visible (documents : List NormalizedDocument) : Prop :=
  ∃ document ∈ documents, document.warnings ≠ [] ∨ document.complete = false

/-! ## What a document tells of -/

def keptCancellations (request : Bytes) : List Frame :=
  ((commands request).filter isCancellation).take maxDocuments

def keptRuns (request : Bytes) : List (Run × Ending) :=
  (runsOf (commands request)).take (maxDocuments - (keptCancellations request).length)

def keptCount (request : Bytes) : Nat :=
  (keptCancellations request).length + (keptRuns request).length

/-- A session that is kept was not closed, has the issues of the request or
warns of what it prints. -/
def SessionShows (context : JobContext) (request : Bytes) (pass : CounterPass) : Prop :=
  ∃ entry ∈ keptRuns request, entry.2 ≠ .closed ∨ (frameStream request).issues ≠ [] ∨
    runWarnings context pass entry.1 ≠ []

/-- A request without documents has issues. -/
def UnknownShows (request : Bytes) : Prop :=
  keptCount request = 0 ∧ request ≠ [] ∧ (frameStream request).issues ≠ []

/-- A response frame that is not a success. -/
def failed (frame : Frame) : Bool :=
  (fullmatch errorResponseRe frame.text).isSome || (fullmatch successResponseRe frame.text).isNone

/-- There is room for the response, and it has issues, is truncated or fails. -/
def ResponseShows (request response : Bytes) : Prop :=
  response ≠ [] ∧ keptCount request < maxDocuments ∧
    ((frameStream response).issues ≠ [] ∨ (frameStream response).truncated = true ∨
      ∃ frame ∈ (frameStream response).frames, isResponse frame = true ∧ failed frame = true)

def Shows (context : JobContext) (request response : Bytes) : Prop :=
  ∃ pass, counterPass (candidates response) (commands request) = .ok pass ∧
    (SessionShows context request pass ∨ UnknownShows request ∨ ResponseShows request response)

variable {context : JobContext} {request response : Bytes} {pass : CounterPass}
variable {documents finished known : List NormalizedDocument} {document : NormalizedDocument}

theorem visible_append {documents' : List NormalizedDocument} :
    Visible (documents ++ documents') ↔ Visible documents ∨ Visible documents' := by
  simp only [Visible, List.mem_append, or_and_right, exists_or]

theorem visible_singleton :
    Visible [document] ↔ document.warnings ≠ [] ∨ document.complete = false := by
  simp [Visible]

theorem not_visible_nil : ¬ Visible [] := by simp [Visible]

/-- A cancellation tells of nothing. -/
theorem not_visible_cancellations (origin : RequestSource) :
    ¬ Visible (cancellationDocuments origin request) := by
  rintro ⟨document, hin, hshown⟩
  obtain ⟨frame, -, rfl⟩ := List.mem_map.mp hin
  rcases hshown with hwarned | hopen
  · exact hwarned rfl
  · cases hopen

theorem documents_shows {entry : Run × Ending} {origin : RequestSource} {issues : List String}
    (h : Documents origin issues pass entry.1 entry.2 document) :
    (document.warnings ≠ [] ∨ document.complete = false) ↔
      entry.2 ≠ .closed ∨ issues ≠ [] ∨ runWarnings origin.context pass entry.1 ≠ [] := by
  rw [Ne, h.quiet, h.complete]
  cases entry.2 with
  | closed =>
    simp only [Ending.warning, Ending.complete, beq_self_eq_true, Bool.true_eq_false, true_and,
      or_false, ne_eq, not_true_eq_false, false_or, not_and_or]
  | managementOpen | commercialOpen | notObserved => simp [Ending.warning]

theorem visible_finished (h : Parses context request response pass finished documents) :
    Visible finished ↔ SessionShows context request pass := by
  have hlength : (cancellationDocuments (requestSource context request response) request).length =
      (keptCancellations request).length := List.length_map _
  have hruns := h.runs
  rw [hlength] at hruns
  constructor
  · rintro ⟨document, hin, hshown⟩
    obtain ⟨entry, hentry, hof⟩ := forall₂_mem_right hruns hin
    exact ⟨entry, hentry, (documents_shows hof).mp hshown⟩
  · rintro ⟨entry, hentry, hshown⟩
    obtain ⟨document, hin, hof⟩ := forall₂_mem_left hruns hentry
    exact ⟨document, hin, (documents_shows hof).mpr hshown⟩

theorem keptCount_eq (h : Parses context request response pass finished documents) :
    (cancellationDocuments (requestSource context request response) request ++ finished).length =
      keptCount request := by
  have hlength : (cancellationDocuments (requestSource context request response) request).length =
      (keptCancellations request).length := List.length_map _
  have hruns := h.runs.length_eq
  rw [hlength] at hruns
  rw [List.length_append, hlength, ← hruns]
  rfl

theorem visible_unknownRest (hcount : known.length = keptCount request) :
    Visible (unknownRest context request known) ↔ UnknownShows request := by
  unfold unknownRest UnknownShows
  rw [← hcount]
  split
  · next htold =>
    simp only [Bool.and_eq_true, Bool.not_eq_true', List.isEmpty_iff, List.isEmpty_eq_false_iff]
      at htold
    refine iff_of_true (visible_singleton.mpr (Or.inr rfl)) ⟨?_, htold.1.2, htold.2⟩
    rw [htold.1.1]
    rfl
  · next htold =>
    refine iff_of_false not_visible_nil fun ⟨hnone, hrequest, hissues⟩ => htold ?_
    simp [List.length_eq_zero_iff.mp hnone, hrequest, hissues]

def errorCodes (frames : List Frame) : List Text :=
  frames.filterMap fun frame =>
    (fullmatch errorResponseRe frame.text).map fun found => RchDrafts.value found "code"

def unclassified (frames : List Frame) : List Frame :=
  frames.filter fun frame =>
    (fullmatch errorResponseRe frame.text).isNone && (fullmatch successResponseRe frame.text).isNone

theorem failed_iff {frames : List Frame} :
    (errorCodes frames ≠ [] ∨ unclassified frames ≠ []) ↔ ∃ frame ∈ frames, failed frame = true := by
  constructor
  · rintro (hcodes | hunknown)
    · obtain ⟨code, hcode⟩ := List.exists_mem_of_ne_nil _ hcodes
      obtain ⟨frame, hin, hfound⟩ := List.mem_filterMap.mp hcode
      obtain ⟨found, herror, -⟩ := Option.map_eq_some_iff.mp hfound
      exact ⟨frame, hin, by simp [failed, herror]⟩
    · obtain ⟨frame, hframe⟩ := List.exists_mem_of_ne_nil _ hunknown
      obtain ⟨hin, hneither⟩ := List.mem_filter.mp hframe
      rw [Bool.and_eq_true] at hneither
      exact ⟨frame, hin, by simp [failed, hneither.2]⟩
  · rintro ⟨frame, hin, hfailed⟩
    cases herror : fullmatch errorResponseRe frame.text with
    | some found =>
      have hcode : RchDrafts.value found "code" ∈ errorCodes frames :=
        List.mem_filterMap.mpr ⟨frame, hin, by rw [herror]; rfl⟩
      exact Or.inl (List.ne_nil_of_mem hcode)
    | none =>
      rw [failed, herror] at hfailed
      refine Or.inr (List.ne_nil_of_mem (List.mem_filter.mpr ⟨hin, ?_⟩))
      rw [herror]
      exact hfailed

/-- The document of a response tells what its frames tell. -/
theorem responseDocument_shows :
    ((responseDocument context response (frameStream response)).warnings ≠ [] ∨
      (responseDocument context response (frameStream response)).complete = false) ↔
    ((frameStream response).issues ≠ [] ∨ (frameStream response).truncated = true ∨
      ∃ frame ∈ (frameStream response).frames, isResponse frame = true ∧ failed frame = true) := by
  generalize frameStream response = stream
  have hframes : (∃ frame ∈ stream.frames, isResponse frame = true ∧ failed frame = true) ↔
      errorCodes (stream.frames.filter isResponse) ≠ [] ∨
        unclassified (stream.frames.filter isResponse) ≠ [] := by
    rw [failed_iff]
    simp only [List.mem_filter, and_assoc]
  have hwarnings : (responseDocument context response stream).warnings = stream.issues ++
      (errorCodes (stream.frames.filter isResponse)).map
        (fun code => "device_error_status:" ++ String.ofList code) ++
      if (unclassified (stream.frames.filter isResponse)).isEmpty then []
      else ["unclassified_response"] := rfl
  have hcomplete : (responseDocument context response stream).complete =
    (stream.issues.isEmpty && !stream.truncated) := rfl
  rw [hframes, hwarnings, hcomplete]
  generalize errorCodes (stream.frames.filter isResponse) = codes
  generalize unclassified (stream.frames.filter isResponse) = unknown
  cases hissues : stream.issues with
  | cons issue issues => simp
  | nil =>
    cases stream.truncated with
    | true => simp
    | false => cases codes <;> cases unknown <;> simp

theorem visible_responseRest (hcount : known.length = keptCount request) :
    Visible (responseRest context response (known ++ unknownRest context request known)) ↔
      ResponseShows request response := by
  have hroom : (known ++ unknownRest context request known).length < maxDocuments ↔
      keptCount request < maxDocuments := by
    rw [List.length_append, ← hcount]
    rcases unknownRest_cases context request known with hrest | hrest
    · rw [hrest]
      exact Iff.rfl
    · have hnone : known = [] := by
        unfold unknownRest at hrest
        split at hrest
        · next htold =>
          simp only [Bool.and_eq_true, List.isEmpty_iff] at htold
          exact htold.1.1
        · cases hrest
      rw [hrest, hnone]
      simp [maxDocuments]
  unfold responseRest ResponseShows
  split
  · next hkept =>
    simp only [Bool.and_eq_true, Bool.not_eq_true', List.isEmpty_eq_false_iff,
      decide_eq_true_eq] at hkept
    rw [visible_singleton, responseDocument_shows]
    exact ⟨fun hshown => ⟨hkept.1, hroom.mp hkept.2, hshown⟩, fun h => h.2.2⟩
  · next hkept =>
    refine iff_of_false not_visible_nil fun hshown => hkept ?_
    rw [Bool.and_eq_true]
    exact ⟨by simp [hshown.1], decide_eq_true (hroom.mpr hshown.2.1)⟩

/-- What is told depends on the documents that are kept. -/
theorem visible_parses (h : Parses context request response pass finished documents) :
    Visible documents ↔
      SessionShows context request pass ∨ UnknownShows request ∨ ResponseShows request response := by
  have hcount := keptCount_eq h
  have hdocuments := h.documents
  dsimp only at hdocuments
  rw [hdocuments, visible_append, visible_append, visible_append, visible_finished h,
    visible_unknownRest hcount, visible_responseRest hcount]
  simp only [not_visible_cancellations, false_or, or_assoc]

/-- What a limit drops is told exactly when a document that is kept tells of
anything. -/
theorem limits_visible_iff (h : parseRch context request response = .ok documents) :
    (Dropped request response → Visible documents) ↔
      (¬ Dropped request response ∨ Shows context request response) := by
  obtain ⟨pass, finished, hpass, hparses⟩ := parseRch_spec h
  have hshows : Visible documents ↔ Shows context request response := by
    rw [visible_parses hparses]
    constructor
    · exact fun hshown => ⟨pass, hpass, hshown⟩
    · rintro ⟨pass', hpass', hshown⟩
      obtain rfl := Except.ok.inj (hpass.symm.trans hpass')
      exact hshown
  rw [hshows]
  exact imp_iff_not_or

/-! ## A document that is dropped in silence -/

/-- As many cancellations as there is room for, and a document behind them. -/
def crowdedSignals : List Signal :=
  List.replicate maxDocuments (.frame cancelFrame) ++
    [.frame managementFrame, .frame managementFrame]

def crowdedRequest : Bytes := encodeAll crowdedSignals

theorem frameStream_crowded : frameStream crowdedRequest =
    { frames := receivedFrames 1 0 crowdedSignals, ackCount := ackCount crowdedSignals,
      issues := [], truncated := false } :=
  frameStream_encodeAll crowdedSignals (by decide +kernel) (by decide +kernel)

theorem crowdedRequest_parsed : ∃ documents,
    parseRch sampleContext crowdedRequest [] = .ok documents ∧
      ∀ document ∈ documents, document.warnings = [] ∧ document.complete = true := by
  have hquiet : (parseRch sampleContext crowdedRequest []).map (·.all fun document =>
      document.warnings.isEmpty && document.complete) = .ok true := by
    simp only [parseRch, requestDocuments, commands, openSession, frameStream_crowded]
    decide +kernel
  obtain ⟨documents, hparsed, hall⟩ := map_eq_ok.mp hquiet
  refine ⟨documents, hparsed, fun document hin => ?_⟩
  have hdocument := List.all_eq_true.mp hall document hin
  simpa using hdocument

theorem dropped_crowded : Dropped crowdedRequest [] := by
  have hcount : maxDocuments < documentCount crowdedRequest [] := by
    rw [documentCount, commands, frameStream_crowded]
    decide +kernel
  exact Or.inr (Or.inr hcount)

theorem limits_visible_iff_crowded : ∃ documents,
    parseRch sampleContext crowdedRequest [] = .ok documents ∧
      ((Dropped crowdedRequest [] → Visible documents) ↔
        (¬ Dropped crowdedRequest [] ∨ Shows sampleContext crowdedRequest [])) := by
  obtain ⟨documents, hparsed, -⟩ := crowdedRequest_parsed
  exact ⟨documents, hparsed, limits_visible_iff hparsed⟩

/-- The last document is dropped, and nothing tells of it. -/
theorem dropped_in_silence : ∃ documents,
    parseRch sampleContext crowdedRequest [] = .ok documents ∧ Dropped crowdedRequest [] ∧
      ¬ Visible documents := by
  obtain ⟨documents, hparsed, hquiet⟩ := crowdedRequest_parsed
  refine ⟨documents, hparsed, dropped_crowded, fun ⟨document, hin, hshown⟩ => ?_⟩
  obtain ⟨hwarnings, hcomplete⟩ := hquiet document hin
  rcases hshown with hwarned | hopen
  · exact hwarned hwarnings
  · rw [hcomplete] at hopen
    cases hopen

end RetailPrintGuard.Parser.RchLimits

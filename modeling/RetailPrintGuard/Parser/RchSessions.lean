import RetailPrintGuard.Parser.RchFilling

/-! # The documents of a request as runs of commands

Without what they print, documents are runs of commands: a run begins with the
command that opens it and ends with one that closes it, before one that opens
another document, or with the request. -/
namespace RetailPrintGuard.Parser.RchSessions
open RetailPrintGuard.Common.Amounts RetailPrintGuard.Common.Python
open RetailPrintGuard.Common.PrintedText hiding finish
open RetailPrintGuard.Library RetailPrintGuard.Library.Checks RetailPrintGuard.Library.Regex
open RetailPrintGuard.Parser.Documents RetailPrintGuard.Parser.Rch
open RetailPrintGuard.Parser.RchCounters RetailPrintGuard.Parser.RchDrafts
open RetailPrintGuard.Parser.RchFilling
open RetailPrintGuard.Parser.RchFraming (Frame frameStream)

inductive Ending where
  | closed
  | managementOpen
  | commercialOpen
  | notObserved
deriving DecidableEq

def Ending.complete (ending : Ending) : Bool := ending == .closed

def Ending.warning : Ending → Option String
  | closed => none
  | managementOpen => some "document_interrupted_by_management_open"
  | commercialOpen => some "document_interrupted_by_commercial_open"
  | notObserved => some "document_close_not_observed"

/-- The commands of a document, the one that opens it first. -/
structure Run where
  kind : Kind
  first : Frame
  more : List Frame := []
deriving DecidableEq

namespace Run

def frames (run : Run) : List Frame := run.first :: run.more

def ids (run : Run) : List Nat := run.frames.map Frame.frameId

def lastFrame (run : Run) : Frame := run.frames.getLast (List.cons_ne_nil _ _)

def stop (run : Run) : Nat := run.lastFrame.offset + run.lastFrame.raw.length

def totalled (run : Run) : Bool := run.more.any setsTotal

def add (run : Run) (frame : Frame) : Run := { run with more := run.more ++ [frame] }

end Run

/-- The runs that have ended and the one that is open. -/
structure Reading where
  ended : List (Run × Ending) := []
  opened : Option Run := none

namespace Reading

def close (reading : Reading) (ending : Ending) : Reading :=
  { ended := reading.ended ++ (reading.opened.map fun run => (run, ending)).toList }

def openRun (reading : Reading) (kind : Kind) (frame : Frame) : Reading :=
  { reading with opened := some { kind, first := frame } }

def addFrame (reading : Reading) (frame : Frame) : Reading :=
  { reading with opened := reading.opened.map fun run => run.add frame }

def step (reading : Reading) (frame : Frame) : Reading :=
  if isManagementOpen frame then
    if reading.opened.any fun run => run.kind == .management then
      (reading.addFrame frame).close .closed
    else (reading.close .managementOpen).openRun .management frame
  else if isCommercialOpen frame then (reading.close .commercialOpen).openRun .commercial frame
  else if reading.opened.any fun run =>
      run.kind == .commercial && endsCommercial frame && run.totalled then
    (reading.addFrame frame).close .closed
  else reading.addFrame frame

end Reading

/-- The documents of a list of commands. -/
def runsOf (frames : List Frame) : List (Run × Ending) :=
  ((frames.foldl Reading.step {}).close .notObserved).ended

/-! ## What a document tells of its run -/

def firstDraft (pass : CounterPass) (session : Session) (run : Run) : Draft :=
  match run.kind with
  | .commercial => commercialDraft pass session run.first
  | .management => newDraft session .management run.first

/-- The draft its commands give a run, as the first one of its request. -/
def runDraft (pass : CounterPass) (run : Run) : Except Raised Draft :=
  run.more.foldlM fill (firstDraft pass { documents := [] } run)

def runWarnings (context : JobContext) (pass : CounterPass) (run : Run) : List String :=
  match runDraft pass run with
  | .error _ => []
  | .ok draft => ownWarnings context draft

def runName (origin : RequestSource) (run : Run) : String :=
  Kind.name run.kind ++ ":" ++ toString run.first.offset ++ ":" ++ origin.sourceHash

/-- The document of a run. -/
structure Documents (origin : RequestSource) (issues : List String) (pass : CounterPass)
    (run : Run) (ending : Ending) (document : NormalizedDocument) : Prop where
  id : document.id = documentId origin.context (runName origin run)
  frames : frameIds document = run.ids
  start : startOffset document = some run.first.offset
  stop : endOffset document = some run.stop
  complete : document.complete = ending.complete
  session : isSession document = true
  warned : ∀ warning ∈ ending.warning.toList ++ issues, warning ∈ document.warnings
  quiet : document.warnings = [] ↔
    ending.warning = none ∧ issues = [] ∧ runWarnings origin.context pass run = []

/-- A draft of the run that is open. -/
structure Drafts (pass : CounterPass) (run : Run) (draft : Draft) : Prop where
  kind : draft.kind = run.kind
  start : draft.startOffset = run.first.offset
  frames : draft.frameIds = run.ids
  stop : draft.endOffset = run.stop
  total : run.kind = .commercial → draft.total.isSome = run.totalled
  filled : runDraft pass run = .ok (renumbered draft)

variable {origin : RequestSource} {issues : List String} {pass : CounterPass}
variable {session session' : Session} {frame : Frame} {run : Run} {draft draft' : Draft}

/-! ## The session follows the runs -/

/-- The session behind the cancellations holds the documents of the runs that
have ended, up to the limit, and a draft of the one that is open. -/
structure Follows (origin : RequestSource) (issues : List String) (pass : CounterPass)
    (cancellations : List NormalizedDocument) (session : Session) (reading : Reading) : Prop where
  documents : ∃ finished, session.documents = cancellations ++ finished ∧
    List.Forall₂ (fun entry document => Documents origin issues pass entry.1 entry.2 document)
      (reading.ended.take (maxDocuments - cancellations.length)) finished
  active : Option.Rel (Drafts pass) reading.opened session.active

variable {cancellations : List NormalizedDocument} {reading : Reading}

theorem documents_of_finishes {draft : Draft} {run : Run} {ending : Ending}
    {document : NormalizedDocument} (hdraft : Drafts pass run draft)
    (hdocument : Finishes origin { draft with
      complete := ending.complete
      warnings := draft.warnings ++ ending.warning.toList ++ issues } document) :
    Documents origin issues pass run ending document where
  id := by rw [hdocument.id, runName, ← hdraft.kind, ← hdraft.start]
  frames := hdocument.frames.trans hdraft.frames
  start := hdocument.start.trans (congrArg some hdraft.start)
  stop := hdocument.stop.trans (congrArg some hdraft.stop)
  complete := hdocument.complete
  session := hdocument.session
  warned warning hin := by
    obtain ⟨identity, -, hwarnings⟩ := hdocument.warnings
    rw [hwarnings, mem_distinct]
    rcases List.mem_append.mp hin with hending | hissue
    · simp [hending]
    · simp [hissue]
  quiet := by
    obtain ⟨identity, hidentity, hwarnings⟩ := hdocument.warnings
    have hprinted : printedRchIdentity origin.context draft = .ok identity := hidentity
    rw [@suffixMismatch_identified draft
      { draft with
        complete := ending.complete
        warnings := draft.warnings ++ ending.warning.toList ++ issues }
      identity rfl rfl] at hwarnings
    rw [hwarnings, distinct_eq_nil, runWarnings, hdraft.filled]
    dsimp only
    rw [ownWarnings_renumbered, ownWarnings, hprinted]
    simp only [List.append_eq_nil_iff, Option.toList_eq_nil_iff]
    tauto

theorem finish_follows {ending : Ending}
    (h : Follows origin issues pass cancellations session reading)
    (hfinish : finish origin issues pass session ending.complete ending.warning = .ok session') :
    Follows origin issues pass cancellations session' (reading.close ending) := by
  obtain ⟨⟨finished, hdocuments, hrel⟩, hactive⟩ := h
  unfold finish at hfinish
  cases hrun : reading.opened with
  | none =>
    rw [hrun] at hactive
    have hnone : session.active = none := by
      cases hsession : session.active with
      | none => rfl
      | some draft => rw [hsession] at hactive; cases hactive
    rw [hnone] at hfinish
    obtain rfl := Except.ok.inj hfinish
    refine ⟨⟨finished, hdocuments, ?_⟩, .none⟩
    simpa [Reading.close, hrun] using hrel
  | some run =>
    rw [hrun] at hactive
    obtain ⟨draft, hsession, hdraft⟩ : ∃ draft, session.active = some draft ∧
        Drafts pass run draft := by
      cases hsession : session.active with
      | none => rw [hsession] at hactive; cases hactive
      | some draft =>
        rw [hsession] at hactive
        cases hactive with
        | some hdraft => exact ⟨draft, rfl, hdraft⟩
    rw [hsession] at hfinish
    dsimp only at hfinish
    have hlength := hrel.length_eq
    rw [List.length_take] at hlength
    have htotal : session.documents.length = cancellations.length + finished.length := by
      rw [hdocuments, List.length_append]
    split at hfinish
    · next hfull =>
      obtain rfl := Except.ok.inj hfinish
      refine ⟨⟨finished, hdocuments, ?_⟩, .none⟩
      rwa [Reading.close, hrun, List.take_append_of_le_length (by omega)]
    · next hroom =>
      obtain ⟨document, hdocument, hfinish⟩ := bind_eq_ok.mp hfinish
      obtain rfl := pure_eq_ok.mp hfinish
      refine ⟨⟨finished ++ [document], ?_, ?_⟩, .none⟩
      · rw [hdocuments, List.append_assoc]
      · rw [List.take_of_length_le (by omega)] at hrel
        rw [Reading.close, hrun, List.take_of_length_le (by simp; omega)]
        exact List.rel_append hrel
          (.cons (documents_of_finishes hdraft (draftDocument_spec hdocument)) .nil)

theorem drafts_newDraft (session : Session) (frame : Frame) :
    Drafts pass { kind := .management, first := frame } (newDraft session .management frame) where
  kind := rfl
  start := rfl
  frames := rfl
  stop := rfl
  total _ := rfl
  filled := rfl

theorem drafts_commercialDraft (session : Session) (frame : Frame) :
    Drafts pass { kind := .commercial, first := frame } (commercialDraft pass session frame) where
  kind := rfl
  start := rfl
  frames := rfl
  stop := rfl
  total _ := rfl
  filled := rfl

/-- A draft that is filled with a command is a draft of the longer run. -/
theorem drafts_filled (h : Drafts pass run draft) (hplace : SamePlace (extend draft frame) draft')
    (htotal : run.kind = .commercial →
      draft'.total.isSome = (draft.total.isSome || setsTotal frame))
    (hfill : fill draft frame = .ok draft') : Drafts pass (run.add frame) draft' where
  kind := hplace.kind.trans h.kind
  start := hplace.start.trans h.start
  frames := by
    rw [hplace.frames]
    show draft.frameIds ++ [frame.frameId] = _
    rw [h.frames]
    simp [Run.ids, Run.frames, Run.add]
  stop := by
    rw [hplace.stop]
    show frame.offset + frame.raw.length = _
    have hlast : (run.add frame).lastFrame = frame := by
      simp [Run.lastFrame, Run.frames, Run.add]
    rw [Run.stop, hlast]
  total hkind := by
    rw [htotal hkind, h.total hkind]
    simp [Run.totalled, Run.add]
  filled := by
    have hfilled := h.filled
    unfold runDraft at hfilled ⊢
    show (run.more ++ [frame]).foldlM fill (firstDraft pass { documents := [] } run) = _
    rw [List.foldlM_append, hfilled, ok_bind, List.foldlM_cons, fill_renumbered, hfill]
    rfl

theorem follows_active (h : Follows origin issues pass cancellations session reading)
    {opened : Option Run} {active : Option Draft}
    (hactive : Option.Rel (Drafts pass) opened active) :
    Follows origin issues pass cancellations { session with active := active }
      { reading with opened := opened } := ⟨h.documents, hactive⟩

theorem finish_opened {ending : Ending} {kind : Kind} {opened : Draft}
    (h : Follows origin issues pass cancellations session reading)
    (hfinish : finish origin issues pass session ending.complete ending.warning = .ok session')
    (hopened : Drafts pass { kind, first := frame } opened) :
    Follows origin issues pass cancellations { session' with active := some opened }
      ((reading.close ending).openRun kind frame) :=
  follows_active (finish_follows h hfinish) (.some hopened)

theorem openManagement_follows (h : Follows origin issues pass cancellations session reading)
    (hopen : isManagementOpen frame = true)
    (hstep : openManagement origin issues pass session frame = .ok session') :
    Follows origin issues pass cancellations session'
      (if reading.opened.any fun run => run.kind == .management then
        (reading.addFrame frame).close .closed
      else (reading.close .managementOpen).openRun .management frame) := by
  unfold openManagement at hstep
  have hactive := h.active
  cases hrun : reading.opened with
  | none =>
    rw [hrun] at hactive
    cases hsession : session.active with
    | some draft => rw [hsession] at hactive; cases hactive
    | none =>
      rw [hsession] at hstep
      obtain rfl := pure_eq_ok.mp hstep
      have hclosed : (reading.close .managementOpen).ended = reading.ended := by
        simp [Reading.close, hrun]
      refine ⟨?_, .some (drafts_newDraft session frame)⟩
      show ∃ finished, _ ∧
        List.Forall₂ _ ((reading.close .managementOpen).ended.take _) finished
      rw [hclosed]
      exact h.documents
  | some run =>
    rw [hrun] at hactive
    cases hsession : session.active with
    | none => rw [hsession] at hactive; cases hactive
    | some draft =>
      rw [hsession] at hactive hstep
      cases hactive with
      | some hdraft =>
        dsimp only at hstep
        split at hstep
        · next hkind =>
          have hopened : (some run).any (fun run => run.kind == .management) = true := by
            simpa [← hdraft.kind] using hkind
          have hadded : Follows origin issues pass cancellations
              { session with active := some (extend draft frame) } (reading.addFrame frame) := by
            rw [Reading.addFrame, hrun]
            refine follows_active h (.some (drafts_filled hdraft (SamePlace.refl _) ?_ ?_))
            · intro hcommercial
              rw [← hdraft.kind, hkind] at hcommercial
              cases hcommercial
            · simp [fill, hkind, hopen]
          rw [if_pos hopened]
          exact @finish_follows _ _ _ _ _ _ _ .closed hadded hstep
        · next hkind =>
          have hopened : ¬ (some run).any (fun run => run.kind == .management) = true := by
            simpa [← hdraft.kind] using hkind
          obtain ⟨closed, hclosed, hstep⟩ := bind_eq_ok.mp hstep
          obtain rfl := pure_eq_ok.mp hstep
          rw [if_neg hopened]
          exact @finish_opened _ _ _ _ _ _ _ _ .managementOpen _ _ h hclosed (drafts_newDraft _ _)

theorem sessionStep_follows (h : Follows origin issues pass cancellations session reading)
    (hstep : sessionStep origin issues pass session frame = .ok session') :
    Follows origin issues pass cancellations session' (reading.step frame) := by
  unfold sessionStep at hstep
  unfold Reading.step
  split at hstep
  · next hopen =>
    rw [if_pos hopen]
    exact openManagement_follows h hopen hstep
  · next hmanagement =>
    rw [if_neg hmanagement]
    split at hstep
    · next hopen =>
      rw [if_pos hopen]
      unfold openCommercial at hstep
      obtain ⟨closed, hclosed, hstep⟩ := bind_eq_ok.mp hstep
      obtain rfl := pure_eq_ok.mp hstep
      exact @finish_opened _ _ _ _ _ _ _ _ .commercialOpen _ _ h hclosed (drafts_commercialDraft _ _)
    · next hcommercial =>
      rw [if_neg hcommercial]
      have hactive := h.active
      cases hrun : reading.opened with
      | none =>
        rw [hrun] at hactive
        cases hsession : session.active with
        | some draft => rw [hsession] at hactive; cases hactive
        | none =>
          rw [hsession] at hstep
          obtain rfl := Except.ok.inj hstep
          rw [if_neg (by simp), Reading.addFrame, hrun]
          exact ⟨h.documents, by rw [hsession]; exact .none⟩
      | some run =>
        rw [hrun] at hactive
        cases hsession : session.active with
        | none => rw [hsession] at hactive; cases hactive
        | some draft =>
          rw [hsession] at hactive hstep
          cases hactive with
          | some hdraft =>
            dsimp only at hstep
            split at hstep
            · next hkind =>
              obtain ⟨filled, hfilled, rfl⟩ := map_eq_ok.mp hstep
              have hrunKind : run.kind = .management := hdraft.kind.symm.trans hkind
              rw [if_neg (by simp [hrunKind]), Reading.addFrame, hrun]
              refine follows_active h
                (.some (drafts_filled hdraft (samePlace_fillManagement hfilled) ?_ ?_))
              · intro hother
                rw [hrunKind] at hother
                cases hother
              · simp [fill, hkind, hmanagement, hfilled]
            · next hkind =>
              have hrunKind : run.kind = .commercial := hdraft.kind.symm.trans hkind
              obtain ⟨⟨filled, closes⟩, hfilled, hstep⟩ := bind_eq_ok.mp hstep
              obtain ⟨hplace, htotal, hcloses⟩ := fillCommercial_spec hfilled
              have hadded : Follows origin issues pass cancellations
                  { session with active := some filled } (reading.addFrame frame) := by
                rw [Reading.addFrame, hrun]
                refine follows_active h (.some (drafts_filled hdraft hplace (fun _ => htotal) ?_))
                simp [fill, hkind, hfilled, Except.map]
              have hends : (some run).any (fun run =>
                  run.kind == .commercial && endsCommercial frame && run.totalled) = closes := by
                rw [hcloses]
                simp [hrunKind, extend, hdraft.total hrunKind]
              rw [hends]
              dsimp only at hstep
              split at hstep
              · next hclose =>
                rw [if_pos hclose]
                exact @finish_follows _ _ _ _ _ _ _ .closed hadded hstep
              · next hclose =>
                obtain rfl := pure_eq_ok.mp hstep
                rw [if_neg hclose]
                exact hadded

/-! ## The documents of a request -/

variable {context : JobContext} {request response : Bytes} {documents : List NormalizedDocument}

def cancellationDocuments (origin : RequestSource) (request : Bytes) : List NormalizedDocument :=
  (((commands request).filter isCancellation).take maxDocuments).map (cancellationDocument origin)

/-- The document of a request that gave no other one. -/
def unknownRest (context : JobContext) (request : Bytes) (known : List NormalizedDocument) :
    List NormalizedDocument :=
  if known.isEmpty && !request.isEmpty && !(frameStream request).issues.isEmpty then
    [unknownDocument context request (frameStream request).issues]
  else []

/-- The document of the response, where there is room for it. -/
def responseRest (context : JobContext) (response : Bytes) (known : List NormalizedDocument) :
    List NormalizedDocument :=
  if !response.isEmpty && known.length < maxDocuments then
    [responseDocument context response (frameStream response)]
  else []

/-- The documents of a request: its cancellations, its runs up to the limit,
and what is left to tell of it and of the response. -/
structure Parses (context : JobContext) (request response : Bytes) (pass : CounterPass)
    (finished documents : List NormalizedDocument) : Prop where
  runs : List.Forall₂ (fun entry document => Documents (requestSource context request response)
      (frameStream request).issues pass entry.1 entry.2 document)
    ((runsOf (commands request)).take (maxDocuments -
      (cancellationDocuments (requestSource context request response) request).length)) finished
  documents : documents =
    let known := cancellationDocuments (requestSource context request response) request ++ finished
    let told := known ++ unknownRest context request known
    told ++ responseRest context response told

theorem session_follows
    (hrun : (commands request).foldlM (sessionStep origin issues pass)
      (openSession origin request) = .ok session)
    (hfinish : finish origin issues pass session false (some "document_close_not_observed") =
      .ok session') :
    ∃ finished, session'.documents = cancellationDocuments origin request ++ finished ∧
      List.Forall₂ (fun entry document => Documents origin issues pass entry.1 entry.2 document)
        ((runsOf (commands request)).take
          (maxDocuments - (cancellationDocuments origin request).length)) finished := by
  have hstart : Follows origin issues pass (cancellationDocuments origin request)
      (openSession origin request) {} :=
    ⟨⟨[], (List.append_nil _).symm, by rw [List.take_nil]; exact .nil⟩, .none⟩
  have hstep : ∀ session reading frame session',
      Follows origin issues pass (cancellationDocuments origin request) session reading →
      sessionStep origin issues pass session frame = .ok session' →
      Follows origin issues pass (cancellationDocuments origin request) session'
        (reading.step frame) := fun _ _ _ _ => sessionStep_follows
  have hend := refines_foldlM hstep hstart hrun
  exact (@finish_follows origin issues pass _ _ _ _ .notObserved hend hfinish).documents

theorem parseRch_spec (h : parseRch context request response = .ok documents) :
    ∃ pass finished, counterPass (candidates response) (commands request) = .ok pass ∧
      Parses context request response pass finished documents := by
  unfold parseRch at h
  obtain ⟨known, hknown, h⟩ := bind_eq_ok.mp h
  unfold requestDocuments at hknown
  obtain ⟨pass, hpass, hknown⟩ := bind_eq_ok.mp hknown
  obtain ⟨session, hsession, hknown⟩ := bind_eq_ok.mp hknown
  obtain ⟨closed, hclosed, hknown⟩ := bind_eq_ok.mp hknown
  obtain rfl := pure_eq_ok.mp hknown
  obtain ⟨finished, hdocuments, hruns⟩ := session_follows hsession hclosed
  refine ⟨pass, finished, hpass, hruns, ?_⟩
  dsimp only at h ⊢
  rw [← hdocuments]
  have htold : (if closed.documents.isEmpty && !request.isEmpty &&
      !(frameStream request).issues.isEmpty then
      [unknownDocument context request (frameStream request).issues] else closed.documents) =
      closed.documents ++ unknownRest context request closed.documents := by
    unfold unknownRest
    split
    · next hnone =>
      simp only [Bool.and_eq_true, List.isEmpty_iff] at hnone
      rw [hnone.1.1, List.nil_append]
    · rw [List.append_nil]
  rw [htold] at h
  unfold responseRest
  split at h
  · next hroom =>
    obtain rfl := pure_eq_ok.mp h
    rw [if_pos hroom]
  · next hroom =>
    obtain rfl := pure_eq_ok.mp h
    rw [if_neg hroom, List.append_nil]

theorem unknownRest_cases (context : JobContext) (request : Bytes)
    (known : List NormalizedDocument) : unknownRest context request known = [] ∨
      unknownRest context request known =
        [unknownDocument context request (frameStream request).issues] := by
  unfold unknownRest
  split
  · exact Or.inr rfl
  · exact Or.inl rfl

theorem responseRest_cases (context : JobContext) (response : Bytes)
    (known : List NormalizedDocument) : responseRest context response known = [] ∨
      responseRest context response known =
        [responseDocument context response (frameStream response)] := by
  unfold responseRest
  split
  · exact Or.inr rfl
  · exact Or.inl rfl

variable {finished : List NormalizedDocument} {document : NormalizedDocument}

/-- What a returned document can be. -/
theorem document_cases (h : Parses context request response pass finished documents)
    (hin : document ∈ documents) :
    (∃ frame ∈ commands request, document =
      cancellationDocument (requestSource context request response) frame) ∨
    (∃ entry ∈ runsOf (commands request), Documents (requestSource context request response)
      (frameStream request).issues pass entry.1 entry.2 document) ∨
    document = unknownDocument context request (frameStream request).issues ∨
    document = responseDocument context response (frameStream response) := by
  rw [h.documents] at hin
  dsimp only at hin
  rcases List.mem_append.mp hin with hin | hresponse
  · rcases List.mem_append.mp hin with hin | hunknown
    · rcases List.mem_append.mp hin with hcancelled | hfinished
      · obtain ⟨frame, hframe, rfl⟩ := List.mem_map.mp hcancelled
        exact Or.inl ⟨frame, List.mem_of_mem_filter (List.mem_of_mem_take hframe), rfl⟩
      · obtain ⟨entry, hentry, hof⟩ := forall₂_mem_right h.runs hfinished
        exact Or.inr (Or.inl ⟨entry, List.mem_of_mem_take hentry, hof⟩)
    · rcases unknownRest_cases context request _ with hrest | hrest <;> rw [hrest] at hunknown
      · cases hunknown
      · exact Or.inr (Or.inr (Or.inl (List.mem_singleton.mp hunknown)))
  · rcases responseRest_cases context response _ with hrest | hrest <;> rw [hrest] at hresponse
    · cases hresponse
    · exact Or.inr (Or.inr (Or.inr (List.mem_singleton.mp hresponse)))

end RetailPrintGuard.Parser.RchSessions

import Mathlib.Data.List.Infix
import Mathlib.Data.List.Pairwise
import Mathlib.Logic.Equiv.List
import RetailPrintGuard.Parser.RchAccounting
import RetailPrintGuard.Parser.RchSessions

/-! # The segmentation of a request

The runs are stretches of the commands one behind the other, and a command is
left out only before the first document and behind one that was closed. -/
namespace RetailPrintGuard.Parser.RchSegmentation
open RetailPrintGuard.Common.Python
open RetailPrintGuard.Library RetailPrintGuard.Library.Checks
open RetailPrintGuard.Parser.Documents RetailPrintGuard.Parser.Rch
open RetailPrintGuard.Parser.RchAccounting RetailPrintGuard.Parser.RchCounters
open RetailPrintGuard.Parser.RchDrafts RetailPrintGuard.Parser.RchFilling
open RetailPrintGuard.Parser.RchFraming (Frame SentFrame encodeAll frameStream openBlock openFrame)
open RetailPrintGuard.Parser.RchSessions

/-- `=o` or `=K` -/
def opens (frame : Frame) : Bool := isManagementOpen frame || isCommercialOpen frame

def runs (reading : Reading) : List Run := reading.ended.map Prod.fst ++ reading.opened.toList

/-- A document was closed at or behind a command. -/
def ClosedFrom (ended : List (Run × Ending)) (opening : Frame) (closing : Frame) : Prop :=
  ∃ run, (run, Ending.closed) ∈ ended ∧ closing ∈ run.frames ∧ opening.frameId ≤ closing.frameId

/-- How the commands that were read are split into runs. -/
structure Splits (frames : List Frame) (reading : Reading) : Prop where
  sublist : ((runs reading).flatMap Run.frames).Sublist frames
  ended : ∀ entry ∈ reading.ended, entry.1.frames <:+: frames
  opened : ∀ run ∈ reading.opened, run.frames <:+ frames
  firsts : ∀ run ∈ runs reading, opens run.first = true
  covers : ∀ frame ∈ frames, opens frame = true → frame ∈ (runs reading).flatMap Run.frames
  outside : ∀ frame ∈ frames, frame ∉ (runs reading).flatMap Run.frames →
    ∀ opening ∈ frames, opens opening = true → opening.frameId < frame.frameId →
      ∃ closing, ClosedFrom reading.ended opening closing ∧ closing.frameId < frame.frameId

/-- Between two documents the last one was closed. -/
def Settled (frames : List Frame) (reading : Reading) : Prop :=
  reading.opened = none → ∀ opening ∈ frames, opens opening = true →
    ∃ closing, ClosedFrom reading.ended opening closing

variable {frames : List Frame} {frame : Frame} {reading : Reading} {ending : Ending} {run : Run}

/-! ## One command -/

theorem runs_close : runs (reading.close ending) = runs reading := by
  cases hopened : reading.opened <;> simp [runs, Reading.close, hopened]

theorem splits_close (h : Splits frames reading) : Splits frames (reading.close ending) where
  sublist := by rw [runs_close]; exact h.sublist
  ended entry hin := by
    rcases List.mem_append.mp hin with hended | hopened
    · exact h.ended entry hended
    · obtain ⟨run, hrun, rfl⟩ := Option.map_eq_some_iff.mp (Option.mem_toList.mp hopened)
      exact (h.opened run hrun).isInfix
  opened run hin := by cases hin
  firsts run hin := h.firsts run (by rwa [runs_close] at hin)
  covers frame hin hopens := by rw [runs_close]; exact h.covers frame hin hopens
  outside frame hin hout opening hopening hopens hlt := by
    rw [runs_close] at hout
    obtain ⟨closing, ⟨run, hrun, hclosing⟩, hbefore⟩ :=
      h.outside frame hin hout opening hopening hopens hlt
    exact ⟨closing, ⟨run, List.mem_append_left _ hrun, hclosing⟩, hbefore⟩

/-- A command that opens a document or belongs to the one that is open. -/
theorem splits_taken {reading' : Reading} (h : Splits frames reading)
    (hnew : ∀ old ∈ frames, old.frameId < frame.frameId)
    (hruns : (runs reading').flatMap Run.frames =
      (runs reading).flatMap Run.frames ++ [frame])
    (hended : reading'.ended = reading.ended)
    (hopened : ∀ run ∈ reading'.opened, run.frames <:+ frames ++ [frame] ∧ opens run.first = true) :
    Splits (frames ++ [frame]) reading' := by
  refine ⟨?_, ?_, fun run hin => (hopened run hin).1, ?_, ?_, ?_⟩
  · rw [hruns]
    exact h.sublist.append (List.Sublist.refl _)
  · intro entry hin
    rw [hended] at hin
    exact (h.ended entry hin).trans (List.prefix_append _ _).isInfix
  · intro run hin
    rcases List.mem_append.mp hin with hold | hrun
    · rw [hended] at hold
      exact h.firsts run (List.mem_append_left _ hold)
    · exact (hopened run (Option.mem_toList.mp hrun)).2
  · intro other hin hother
    rw [hruns]
    rcases List.mem_append.mp hin with hold | hlast
    · exact List.mem_append_left _ (h.covers other hold hother)
    · exact List.mem_append_right _ hlast
  · intro other hin hout opening hopening hother hlt
    rw [hruns, List.mem_append, not_or] at hout
    rw [hended]
    have hold : other ∈ frames := (List.mem_append.mp hin).resolve_right hout.2
    have hbefore := hnew other hold
    have hfirst : opening ∈ frames := by
      rcases List.mem_append.mp hopening with hfirst | hlast
      · exact hfirst
      · rw [List.mem_singleton.mp hlast] at hlt
        omega
    exact h.outside other hold hout.1 opening hfirst hother hlt

theorem splits_openRun {kind : Kind} (h : Splits frames reading) (hidle : reading.opened = none)
    (hnew : ∀ old ∈ frames, old.frameId < frame.frameId) (hopens : opens frame = true) :
    Splits (frames ++ [frame]) (reading.openRun kind frame) := by
  refine splits_taken h hnew ?_ rfl fun run hin => ?_
  · simp [runs, hidle, Reading.openRun, Run.frames]
  · obtain rfl := Option.some.inj hin
    exact ⟨List.suffix_append _ _, hopens⟩

theorem addFrame_idle (hidle : reading.opened = none) : reading.addFrame frame = reading := by
  cases reading
  simp_all [Reading.addFrame]

/-- A command that opens no document belongs to the one that is open. -/
theorem splits_addFrame (h : Splits frames reading) (hsettled : Settled frames reading)
    (hnew : ∀ old ∈ frames, old.frameId < frame.frameId)
    (hidle : reading.opened = none → opens frame = false) :
    Splits (frames ++ [frame]) (reading.addFrame frame) := by
  cases hopened : reading.opened with
  | some run =>
    refine splits_taken h hnew ?_ rfl fun added hin => ?_
    · simp [runs, Reading.addFrame, hopened, Run.add, Run.frames]
    · rw [Reading.addFrame, hopened] at hin
      obtain rfl := Option.some.inj hin
      obtain ⟨before, hbefore⟩ := h.opened run hopened
      refine ⟨⟨before, by rw [← hbefore]; simp [Run.add, Run.frames]⟩, ?_⟩
      exact h.firsts run (List.mem_append_right _ (Option.mem_toList.mpr hopened))
  | none =>
    have hquiet := hidle hopened
    rw [addFrame_idle hopened]
    have hfirst : ∀ opening ∈ frames ++ [frame], opens opening = true → opening ∈ frames := by
      intro opening hin hopens
      refine (List.mem_append.mp hin).resolve_right fun hlast => ?_
      rw [List.mem_singleton.mp hlast, hquiet] at hopens
      cases hopens
    refine ⟨h.sublist.trans (List.sublist_append_left _ _), ?_, ?_, h.firsts, ?_, ?_⟩
    · intro entry hin
      exact (h.ended entry hin).trans (List.prefix_append _ _).isInfix
    · intro run hin
      rw [hopened] at hin
      cases hin
    · intro other hin hother
      exact h.covers other (hfirst other hin hother) hother
    · intro other hin hout opening hopening hother hlt
      have hopening := hfirst opening hopening hother
      rcases List.mem_append.mp hin with hold | hlast
      · exact h.outside other hold hout opening hopening hother hlt
      · obtain ⟨closing, run, hrun, hclosing, hle⟩ := hsettled hopened opening hopening hother
        rw [List.mem_singleton.mp hlast]
        exact ⟨closing, ⟨run, hrun, hclosing, hle⟩,
          hnew closing ((h.ended _ hrun).subset hclosing)⟩

theorem settled_opened (hopened : reading.opened.isSome = true) : Settled frames reading := by
  intro hidle
  rw [hidle] at hopened
  cases hopened

/-- A closed document ends behind every command that was read. -/
theorem settled_closed (h : Splits frames reading) (hrun : reading.opened = some run)
    (hpair : frames.Pairwise fun a b => a.frameId < b.frameId) :
    Settled frames (reading.close .closed) := by
  intro _ opening hopening _
  refine ⟨run.lastFrame, run, ?_, List.getLast_mem _, ?_⟩
  · simp [Reading.close, hrun]
  · obtain ⟨before, hbefore⟩ := h.opened run hrun
    have hlast : frames.getLast (List.ne_nil_of_mem hopening) = run.lastFrame := by
      simp only [← hbefore, Run.lastFrame]
      exact List.getLast_append_of_ne_nil _ (List.cons_ne_nil _ _)
    have hle : frames.Pairwise fun a b => a.frameId ≤ b.frameId := hpair.imp Nat.le_of_lt
    rw [← hlast]
    exact hle.rel_getLast_of_rel_getLast_getLast hopening (Nat.le_refl _)

/-- One command splits the commands further. -/
theorem splits_step (h : Splits frames reading) (hsettled : Settled frames reading)
    (hpair : (frames ++ [frame]).Pairwise fun a b => a.frameId < b.frameId) :
    Splits (frames ++ [frame]) (reading.step frame) ∧
      Settled (frames ++ [frame]) (reading.step frame) := by
  have hnew : ∀ old ∈ frames, old.frameId < frame.frameId := fun old hold =>
    (List.pairwise_append.mp hpair).2.2 old hold frame (List.mem_singleton_self _)
  have hopen : ∀ {kind : Kind} {ending : Ending}, opens frame = true →
      Splits (frames ++ [frame]) ((reading.close ending).openRun kind frame) ∧
        Settled (frames ++ [frame]) ((reading.close ending).openRun kind frame) :=
    fun hopens => ⟨splits_openRun (splits_close h) rfl hnew hopens, settled_opened rfl⟩
  have hclose : ∀ {run : Run}, reading.opened = some run →
      Splits (frames ++ [frame]) ((reading.addFrame frame).close .closed) ∧
        Settled (frames ++ [frame]) ((reading.addFrame frame).close .closed) := by
    intro run hrun
    have hadded := splits_addFrame h hsettled hnew fun hidle => by rw [hrun] at hidle; cases hidle
    exact ⟨splits_close hadded, settled_closed hadded (by rw [Reading.addFrame, hrun]; rfl) hpair⟩
  unfold Reading.step
  split
  · next hmanagement =>
    split
    · next hkind =>
      obtain ⟨run, hrun, -⟩ := (Option.any_eq_true _ _).mp hkind
      exact hclose hrun
    · exact hopen (by simp [opens, hmanagement])
  · next hmanagement =>
    split
    · next hcommercial => exact hopen (by simp [opens, hcommercial])
    · next hcommercial =>
      have hquiet : opens frame = false := by simp [opens, hmanagement, hcommercial]
      split
      · next hends =>
        obtain ⟨run, hrun, -⟩ := (Option.any_eq_true _ _).mp hends
        exact hclose hrun
      · have hadded := splits_addFrame h hsettled hnew fun _ => hquiet
        refine ⟨hadded, fun hidle opening hin hopens => ?_⟩
        have hold : reading.opened = none := by simpa [Reading.addFrame] using hidle
        rw [addFrame_idle hold]
        refine hsettled hold opening ((List.mem_append.mp hin).resolve_right fun hlast => ?_) hopens
        rw [List.mem_singleton.mp hlast, hquiet] at hopens
        cases hopens

theorem splits_foldl (hpair : frames.Pairwise fun a b => a.frameId < b.frameId) :
    Splits frames (frames.foldl Reading.step {}) ∧
      Settled frames (frames.foldl Reading.step {}) := by
  induction frames using List.reverseRecOn with
  | nil =>
    refine ⟨⟨List.Sublist.refl _, ?_, ?_, ?_, ?_, ?_⟩, ?_⟩ <;> simp [runs, Settled]
  | append_singleton frames frame ih =>
    obtain ⟨hsplits, hsettled⟩ := ih (List.pairwise_append.mp hpair).1
    rw [List.foldl_append]
    exact splits_step hsplits hsettled hpair

/-- How the commands are split into documents. -/
structure Documented (frames : List Frame) (documents : List (Run × Ending)) : Prop where
  sublist : (documents.flatMap fun entry => entry.1.frames).Sublist frames
  infixes : ∀ entry ∈ documents, entry.1.frames <:+: frames
  firsts : ∀ entry ∈ documents, opens entry.1.first = true
  covers : ∀ frame ∈ frames, opens frame = true →
    frame ∈ documents.flatMap fun entry => entry.1.frames
  outside : ∀ frame ∈ frames, (frame ∉ documents.flatMap fun entry => entry.1.frames) →
    ∀ opening ∈ frames, opens opening = true → opening.frameId < frame.frameId →
      ∃ closing, ClosedFrom documents opening closing ∧ closing.frameId < frame.frameId

theorem documented_runsOf (hpair : frames.Pairwise fun a b => a.frameId < b.frameId) :
    Documented frames (runsOf frames) := by
  have h := @splits_close _ _ .notObserved (splits_foldl hpair).1
  have hruns : (runs ((frames.foldl Reading.step {}).close .notObserved)).flatMap Run.frames =
      (runsOf frames).flatMap fun entry => entry.1.frames := by
    simp [runs, runsOf, Reading.close, List.flatMap_map]
  have hmem : ∀ entry ∈ runsOf frames,
      entry.1 ∈ runs ((frames.foldl Reading.step {}).close .notObserved) := fun entry hin =>
    List.mem_append_left _ (List.mem_map_of_mem hin)
  have hsublist := h.sublist
  have hcovers := h.covers
  have houtside := h.outside
  rw [hruns] at hsublist hcovers houtside
  exact ⟨hsublist, h.ended, fun entry hin => h.firsts entry.1 (hmem entry hin), hcovers, houtside⟩

/-! ## The documents of a session -/

variable {context : JobContext} {request response : Bytes} {pass : CounterPass}
variable {finished documents : List NormalizedDocument} {document : NormalizedDocument}

def sessions (documents : List NormalizedDocument) : List NormalizedDocument :=
  documents.filter isSession

theorem sessions_parses (h : Parses context request response pass finished documents) :
    sessions documents = finished := by
  have hcancelled : (cancellationDocuments (requestSource context request response)
      request).filter isSession = [] := by
    rw [List.filter_eq_nil_iff]
    intro document hin
    obtain ⟨frame, -, rfl⟩ := List.mem_map.mp hin
    exact Bool.false_ne_true
  have hfinished : finished.filter isSession = finished := by
    rw [List.filter_eq_self]
    intro document hin
    obtain ⟨entry, -, hdocument⟩ := forall₂_mem_right h.runs hin
    exact hdocument.session
  have hunknown : ∀ known, (unknownRest context request known).filter isSession = [] := by
    intro known
    unfold unknownRest
    split <;> rfl
  have hresponse : ∀ known, (responseRest context response known).filter isSession = [] := by
    intro known
    unfold responseRest
    split <;> rfl
  rw [h.documents, sessions]
  dsimp only
  rw [List.filter_append, List.filter_append, List.filter_append, hcancelled, hfinished, hunknown,
    hresponse]
  simp

/-- Below the limit every run has its document. -/
theorem runs_of_room (h : Parses context request response pass finished documents)
    (hlimit : documents.length < maxDocuments) :
    List.Forall₂ (fun entry document => Documents (requestSource context request response)
      (frameStream request).issues pass entry.1 entry.2 document)
      (runsOf (commands request)) finished := by
  have hruns := h.runs
  have hlength := hruns.length_eq
  have htotal : (cancellationDocuments (requestSource context request response) request).length +
      finished.length ≤ documents.length := by
    rw [h.documents]
    simp only [List.length_append]
    omega
  rw [List.length_take] at hlength
  rwa [List.take_of_length_le (by omega)] at hruns

theorem pairwise_commands (request : Bytes) : (commands request).Pairwise Before := by
  obtain ⟨stretches, h⟩ := exists_accounts request
  exact h.pairwise_frames.sublist List.filter_sublist

theorem raw_ne_nil (hin : frame ∈ commands request) : frame.raw ≠ [] := by
  obtain ⟨stretches, h⟩ := exists_accounts request
  exact (h.sliced (List.mem_of_mem_filter hin)).1

/-- The commands of a run are the ones between its ends. -/
theorem mem_run_iff (hsegment : run.frames <:+: commands request) (hin : frame ∈ commands request) :
    frame ∈ run.frames ↔
      run.first.offset ≤ frame.offset ∧ frame.offset + frame.raw.length ≤ run.stop := by
  have hpos : 0 < frame.raw.length := List.length_pos_iff.mpr (raw_ne_nil hin)
  obtain ⟨before, after, hsplit⟩ := hsegment
  have hpair := pairwise_commands request
  rw [← hsplit, List.append_assoc, List.pairwise_append, List.pairwise_append] at hpair
  obtain ⟨-, ⟨hrun, -, hafter⟩, hbefore⟩ := hpair
  constructor
  · intro hmem
    constructor
    · rcases List.mem_cons.mp hmem with rfl | hmore
      · exact Nat.le_refl _
      · have hfirst := (List.pairwise_cons.mp hrun).1 frame hmore
        exact (Nat.le_add_right _ _).trans hfirst.2
    · have hle : run.frames.Pairwise fun a b =>
          a.offset + a.raw.length ≤ b.offset + b.raw.length :=
        hrun.imp fun h => h.2.trans (Nat.le_add_right _ _)
      exact hle.rel_getLast_of_rel_getLast_getLast hmem (Nat.le_refl _)
  · rintro ⟨hstart, hstop⟩
    rw [← hsplit, List.append_assoc, List.mem_append, List.mem_append] at hin
    rcases hin with hin | hin | hin
    · have hearly := (hbefore frame hin run.first
        (List.mem_append_left _ List.mem_cons_self)).2
      omega
    · exact hin
    · have hlate := (hafter run.lastFrame (List.getLast_mem _) frame hin).2
      rw [Run.stop] at hstop
      omega

/-! ## The ids -/

/-- The first two letters of a document's name tell what it is a document of. -/
def initials (name : String) : List Char := name.toList.take 2

def cancelName (origin : RequestSource) (frame : Frame) : String :=
  "cancel-command:" ++ toString frame.offset ++ ":" ++ origin.sourceHash

theorem cancelName_eq (origin : RequestSource) (frame : Frame) : cancelName origin frame =
    "cancel-command:" ++ toString frame.offset ++ ":" ++ origin.sourceHash := by
  delta cancelName
  rfl

theorem initials_cancelName (origin : RequestSource) (frame : Frame) :
    initials (cancelName origin frame) = ['c', 'a'] := by
  simp [initials, cancelName_eq]

theorem initials_runName (origin : RequestSource) (run : Run) :
    initials (runName origin run) = ['c', 'o'] ∨ initials (runName origin run) = ['m', 'a'] := by
  cases hkind : run.kind with
  | commercial => exact Or.inl (by simp [initials, runName, hkind, Kind.name])
  | management => exact Or.inr (by simp [initials, runName, hkind, Kind.name])

theorem toString_injective {i j : Nat} (h : toString i = toString j) : i = j := by
  have hdigits := congrArg (fun text : String => Nat.ofDigitChars 10 text.toList 0) h
  simpa [Nat.toString_eq_ofList_toDigits] using hdigits

theorem offset_of_cancelName {origin : RequestSource} {a b : Frame}
    (h : cancelName origin a = cancelName origin b) : a.offset = b.offset := by
  rw [cancelName_eq, cancelName_eq] at h
  rw [String.append_left_inj, String.append_left_inj, String.append_right_inj] at h
  exact toString_injective h

theorem offset_of_runName {origin : RequestSource} {a b : Run}
    (h : runName origin a = runName origin b) : a.first.offset = b.first.offset := by
  have hkind : Kind.name a.kind = Kind.name b.kind := by
    have hinitials := congrArg initials h
    cases ha : a.kind <;> cases hb : b.kind <;>
      simp [initials, runName, ha, hb, Kind.name] at hinitials ⊢
  unfold runName at h
  rw [hkind, String.append_left_inj, String.append_left_inj, String.append_right_inj] at h
  exact toString_injective h

theorem documentId_injective (hinj : Function.Injective context.uuid5) :
    Function.Injective (documentId context) := by
  intro a b h
  have hname := hinj h
  rwa [String.append_right_inj] at hname

/-- The names of the documents of a request, its runs below the limit. -/
def names (origin : RequestSource) (request : Bytes) (rest : List String) : List String :=
  (((commands request).filter isCancellation).take maxDocuments).map (cancelName origin) ++
    (runsOf (commands request)).map (fun entry => runName origin entry.1) ++ rest

theorem pairwise_firsts (request : Bytes) :
    (runsOf (commands request)).Pairwise fun a b => a.1.first.offset < b.1.first.offset := by
  have hcommands := pairwise_commands request
  have hdocumented := documented_runsOf (hcommands.imp And.left)
  have hflat := hcommands.sublist hdocumented.sublist
  rw [List.pairwise_flatMap] at hflat
  refine hflat.2.imp_of_mem ?_
  intro a b ha _ hab
  have hfirst := hab a.1.first List.mem_cons_self b.1.first List.mem_cons_self
  have hmem := (hdocumented.infixes a ha).subset (List.mem_cons_self : a.1.first ∈ a.1.frames)
  have hpos := List.length_pos_iff.mpr (raw_ne_nil hmem)
  have hle := hfirst.2
  omega

theorem nodup_names {origin : RequestSource} {rest : List String} (hrest : rest.Nodup)
    (hinitials : ∀ name ∈ rest, initials name = ['u', 'n'] ∨ initials name = ['r', 'e']) :
    (names origin request rest).Nodup := by
  have hcancelled : ((((commands request).filter isCancellation).take maxDocuments).map
      (cancelName origin)).Nodup := by
    have hpair : (((commands request).filter isCancellation).take maxDocuments).Pairwise Before :=
      (pairwise_commands request).sublist ((List.take_sublist _ _).trans List.filter_sublist)
    refine List.pairwise_map.mpr (hpair.imp_of_mem ?_)
    intro a b ha _ hab heq
    have hmem := List.mem_of_mem_filter (List.mem_of_mem_take ha)
    have hpos := List.length_pos_iff.mpr (raw_ne_nil hmem)
    have hoffset := offset_of_cancelName heq
    have hle := hab.2
    omega
  have hruns : ((runsOf (commands request)).map fun entry => runName origin entry.1).Nodup := by
    refine List.pairwise_map.mpr ((pairwise_firsts request).imp ?_)
    intro a b hab heq
    exact absurd (offset_of_runName heq) (Nat.ne_of_lt hab)
  rw [names, List.nodup_append, List.nodup_append]
  refine ⟨⟨hcancelled, hruns, ?_⟩, hrest, ?_⟩
  · rintro _ ha _ hb rfl
    obtain ⟨frame, -, rfl⟩ := List.mem_map.mp ha
    obtain ⟨entry, -, hname⟩ := List.mem_map.mp hb
    have hkind := initials_runName origin entry.1
    rw [hname, initials_cancelName] at hkind
    simp at hkind
  · rintro name ha _ hb rfl
    have hother := hinitials name hb
    rcases List.mem_append.mp ha with hcancel | hrun
    · obtain ⟨frame, -, rfl⟩ := List.mem_map.mp hcancel
      rw [initials_cancelName] at hother
      simp at hother
    · obtain ⟨entry, -, rfl⟩ := List.mem_map.mp hrun
      rcases initials_runName origin entry.1 with hkind | hkind <;> rw [hkind] at hother <;>
        simp at hother

/-- The rest of the documents has at most one of each kind. -/
theorem exists_restNames (context : JobContext) (request response : Bytes)
    (known : List NormalizedDocument) : ∃ rest : List String, rest.Nodup ∧
      (∀ name ∈ rest, initials name = ['u', 'n'] ∨ initials name = ['r', 'e']) ∧
      (unknownRest context request known ++
        responseRest context response (known ++ unknownRest context request known)).map (·.id) =
          rest.map (documentId context) := by
  have hunknown : initials ("unknown:" ++ Sha256.hexdigest request) = ['u', 'n'] := by
    simp [initials]
  have hresponse : initials ("response:" ++ Sha256.hexdigest response) = ['r', 'e'] := by
    simp [initials]
  have hne : "unknown:" ++ Sha256.hexdigest request ≠ "response:" ++ Sha256.hexdigest response := by
    intro heq
    rw [heq, hresponse] at hunknown
    simp at hunknown
  rcases unknownRest_cases context request known with htold | htold <;>
    rcases responseRest_cases context response (known ++ unknownRest context request known)
      with hroom | hroom <;> rw [hroom, htold]
  · exact ⟨[], by simp, by simp, rfl⟩
  · exact ⟨["response:" ++ Sha256.hexdigest response], by simp, by simp [hresponse], rfl⟩
  · exact ⟨["unknown:" ++ Sha256.hexdigest request], by simp, by simp [hunknown], rfl⟩
  · exact ⟨["unknown:" ++ Sha256.hexdigest request, "response:" ++ Sha256.hexdigest response],
      by simp [hne], by simp [hunknown, hresponse], rfl⟩

/-- Below the limit the ids of all documents are distinct. -/
theorem nodup_ids (h : Parses context request response pass finished documents)
    (hlimit : documents.length < maxDocuments) (hinj : Function.Injective context.uuid5) :
    (documents.map (·.id)).Nodup := by
  have hruns := map_eq_of_forall₂ (runs_of_room h hlimit) fun _ _ hdocument => hdocument.id
  obtain ⟨rest, hnodup, hinitials, hrest⟩ := exists_restNames context request response
    (cancellationDocuments (requestSource context request response) request ++ finished)
  have hids : documents.map (·.id) =
      (names (requestSource context request response) request rest).map (documentId context) := by
    rw [h.documents]
    dsimp only
    rw [List.append_assoc, List.map_append, hrest, List.map_append, hruns, names]
    simp [cancellationDocuments, cancellationDocument, cancelName_eq, requestSource,
      Function.comp_def]
  rw [hids]
  exact (nodup_names hnodup hinitials).map (documentId_injective hinj)

/-! ## The segmentation -/

/-- The commands of a request are dealt out to the documents of its sessions. -/
structure Segmented (request : Bytes) (documents : List NormalizedDocument) : Prop where
  ordered : ((sessions documents).flatMap frameIds).Pairwise (· < ·)
  framed : ∀ document ∈ sessions documents, ∀ id ∈ frameIds document,
    ∃ frame ∈ (frameStream request).frames, frame.frameId = id ∧
      frame.address = "00".toList ∧ frame.frameClass = 'z' ∧ frame.bccValid = true
  placed : ∀ document ∈ sessions documents, ∃ opening ∈ commands request,
    ∃ last ∈ commands request, opens opening = true ∧
      (frameIds document).head? = some opening.frameId ∧
      (frameIds document).getLast? = some last.frameId ∧
      startOffset document = some opening.offset ∧
      endOffset document = some (last.offset + last.raw.length)
  opened : ∀ frame ∈ commands request, opens frame = true →
    ∃! document, document ∈ sessions documents ∧ frame.frameId ∈ frameIds document
  between : ∀ document ∈ sessions documents, ∀ start stop,
    startOffset document = some start → endOffset document = some stop →
      ∀ frame ∈ commands request, start ≤ frame.offset → frame.offset + frame.raw.length ≤ stop →
        frame.frameId ∈ frameIds document ∧
          ∃! other, other ∈ sessions documents ∧ frame.frameId ∈ frameIds other
  outside : ∀ frame ∈ commands request,
    (∀ document ∈ sessions documents, frame.frameId ∉ frameIds document) →
      ∀ opening ∈ commands request, opens opening = true → opening.frameId < frame.frameId →
        ∃ document ∈ sessions documents, document.complete = true ∧
          ∃ id ∈ frameIds document, opening.frameId ≤ id ∧ id < frame.frameId
  distinct : (documents.map (·.id)).Nodup

theorem unique_of_ordered {documents : List NormalizedDocument} {id : Nat}
    (hordered : (documents.flatMap frameIds).Pairwise (· < ·)) (hin : document ∈ documents)
    (hid : id ∈ frameIds document) :
    ∃! document, document ∈ documents ∧ id ∈ frameIds document := by
  refine ⟨document, ⟨hin, hid⟩, fun other ⟨hother, hotherId⟩ => ?_⟩
  by_contra hne
  have hpair : documents.Pairwise fun a b => ∀ id ∈ frameIds a, id ∉ frameIds b :=
    (List.pairwise_flatMap.mp hordered).2.imp fun h id ha hb => absurd (h id ha id hb) (lt_irrefl _)
  have hsymm : Std.Symm fun a b : NormalizedDocument => ∀ id ∈ frameIds a, id ∉ frameIds b :=
    ⟨fun _ _ h id hb ha => h id ha hb⟩
  exact hpair.forall hother hin hne id hotherId hid

/-- Each command between an opening one and the end of its document belongs to
exactly one document of a session. -/
theorem sessions_segmented (h : parseRch context request response = .ok documents)
    (hlimit : documents.length < maxDocuments) (hinj : Function.Injective context.uuid5) :
    Segmented request documents := by
  obtain ⟨pass, finished, -, hparses⟩ := parseRch_spec h
  have hruns := runs_of_room hparses hlimit
  have hsessions := sessions_parses hparses
  have hcommands := pairwise_commands request
  have hdocumented := documented_runsOf (hcommands.imp And.left)
  have hids : (sessions documents).flatMap frameIds =
      ((runsOf (commands request)).flatMap fun entry => entry.1.frames).map Frame.frameId := by
    rw [hsessions, List.flatMap_def, List.map_flatMap, List.flatMap_def,
      map_eq_of_forall₂ hruns fun _ _ hdocument => hdocument.frames]
    rfl
  have hordered : ((sessions documents).flatMap frameIds).Pairwise (· < ·) := by
    rw [hids, List.pairwise_map]
    exact (hcommands.sublist hdocumented.sublist).imp And.left
  -- A document of a session is the document of a run, and every run has one.
  have hrunOf : ∀ document ∈ sessions documents, ∃ entry ∈ runsOf (commands request),
      Documents (requestSource context request response) (frameStream request).issues pass
        entry.1 entry.2 document := fun document hin =>
    forall₂_mem_right hruns (hsessions ▸ hin)
  have hdocumentOf : ∀ entry ∈ runsOf (commands request), ∃ document ∈ sessions documents,
      Documents (requestSource context request response) (frameStream request).issues pass
        entry.1 entry.2 document := by
    rw [hsessions]
    intro entry hin
    obtain ⟨document, hdocument, hof⟩ := forall₂_mem_left hruns hin
    exact ⟨document, hdocument, hof⟩
  have hfound : ∀ frame ∈ (runsOf (commands request)).flatMap (fun entry => entry.1.frames),
      ∃ document ∈ sessions documents, frame.frameId ∈ frameIds document := by
    intro frame hin
    obtain ⟨entry, hentry, hmem⟩ := List.mem_flatMap.mp hin
    obtain ⟨document, hdocument, hof⟩ := hdocumentOf entry hentry
    exact ⟨document, hdocument, by rw [hof.frames]; exact List.mem_map_of_mem hmem⟩
  refine ⟨hordered, ?_, ?_, ?_, ?_, ?_, nodup_ids hparses hlimit hinj⟩
  · intro document hin id hid
    obtain ⟨entry, hentry, hof⟩ := hrunOf document hin
    rw [hof.frames] at hid
    obtain ⟨frame, hframe, rfl⟩ := List.mem_map.mp hid
    have hmem := (hdocumented.infixes entry hentry).subset hframe
    obtain ⟨hkept, hcommand⟩ := List.mem_filter.mp hmem
    simp only [isCommand, Bool.and_eq_true, beq_iff_eq] at hcommand
    exact ⟨frame, hkept, rfl, hcommand.1.1, hcommand.1.2, hcommand.2⟩
  · intro document hin
    obtain ⟨entry, hentry, hof⟩ := hrunOf document hin
    have hsegment := hdocumented.infixes entry hentry
    refine ⟨entry.1.first, hsegment.subset List.mem_cons_self, entry.1.lastFrame,
      hsegment.subset (List.getLast_mem _), hdocumented.firsts entry hentry, ?_, ?_, hof.start,
      hof.stop⟩
    · rw [hof.frames]
      rfl
    · rw [hof.frames, Run.ids, List.getLast?_map, List.getLast?_eq_getLast_of_ne_nil]
      rfl
  · intro frame hin hopens
    obtain ⟨document, hdocument, hid⟩ := hfound frame (hdocumented.covers frame hin hopens)
    exact unique_of_ordered hordered hdocument hid
  · intro document hin start stop hstart hstop frame hframe hle hge
    obtain ⟨entry, hentry, hof⟩ := hrunOf document hin
    have hstart := Option.some.inj (hof.start.symm.trans hstart)
    have hstop := Option.some.inj (hof.stop.symm.trans hstop)
    have hmem := (mem_run_iff (hdocumented.infixes entry hentry) hframe).mpr
      ⟨by omega, by omega⟩
    have hid : frame.frameId ∈ frameIds document := by
      rw [hof.frames]
      exact List.mem_map_of_mem hmem
    exact ⟨hid, unique_of_ordered hordered hin hid⟩
  · intro frame hin hout opening hopening hopens hlt
    obtain ⟨closing, ⟨run, hrun, hclosing, hle⟩, hbefore⟩ :=
      hdocumented.outside frame hin
        (fun hmem => by
          obtain ⟨document, hdocument, hid⟩ := hfound frame hmem
          exact hout document hdocument hid)
        opening hopening hopens hlt
    obtain ⟨document, hdocument, hof⟩ := hdocumentOf _ hrun
    refine ⟨document, hdocument, hof.complete, closing.frameId, ?_, hle, hbefore⟩
    rw [hof.frames]
    exact List.mem_map_of_mem hclosing

/-! ## A cancellation inside a document -/

def cancelFrame : SentFrame where
  toBlock := { openBlock with data := [61, 107], length := by decide }
  bccHigh := 50
  bccLow := 67
  checked := by decide

/-- A document that is opened and cancelled. -/
def cancelledRequest : Bytes := encodeAll [.frame openFrame, .frame cancelFrame]

def sampleContext : JobContext where
  deviceId := "printer"
  jobId := "job"
  capturedAt := ⟨0, 0⟩
  manifestSha256 := ""
  sourcePath := "request.bin"
  zoneInfo _ := none
  uuid5 name := Encodable.encode (name.toList.map Char.toNat)

theorem sampleContext_injective : Function.Injective sampleContext.uuid5 := by
  intro a b h
  have hcodes := Encodable.encode_injective h
  exact String.toList_inj.mp (List.map_injective_iff.mpr (fun _ _ => Char.toNat_inj.mp) hcodes)

/-- Where a document lies in the request. -/
def placeOf (document : NormalizedDocument) : Bool × List Nat × Option Nat × Option Nat :=
  (isSession document, frameIds document, startOffset document, endOffset document)

theorem cancelledRequest_parsed : ∃ cancelled opened,
    parseRch sampleContext cancelledRequest [] = .ok [cancelled, opened] ∧
      placeOf cancelled = (false, [2], some 13, some 26) ∧
      placeOf opened = (true, [1, 2], some 0, some 26) := by
  have hplaces : (parseRch sampleContext cancelledRequest []).map (·.map placeOf) =
      .ok [(false, [2], some 13, some 26), (true, [1, 2], some 0, some 26)] := by
    decide +kernel
  obtain ⟨documents, hparsed, hmap⟩ := map_eq_ok.mp hplaces
  obtain ⟨cancelled, rest, rfl, hcancelled, hrest⟩ := List.map_eq_cons_iff.mp hmap
  obtain ⟨opened, rest, rfl, hopened, hnil⟩ := List.map_eq_cons_iff.mp hrest
  obtain rfl := List.map_eq_nil_iff.mp hnil
  exact ⟨cancelled, opened, hparsed, hcancelled, hopened⟩

theorem sessions_segmented_cancelled : ∃ documents,
    parseRch sampleContext cancelledRequest [] = .ok documents ∧
      Segmented cancelledRequest documents := by
  obtain ⟨cancelled, opened, hparsed, -⟩ := cancelledRequest_parsed
  exact ⟨_, hparsed, sessions_segmented hparsed (by simp [maxDocuments]) sampleContext_injective⟩

/-- Each command of a document belongs to no other one, cancellations included. -/
def Exclusive (request : Bytes) (documents : List NormalizedDocument) : Prop :=
  ∀ document ∈ sessions documents, ∀ start stop,
    startOffset document = some start → endOffset document = some stop →
      ∀ frame ∈ commands request, start ≤ frame.offset → frame.offset + frame.raw.length ≤ stop →
        ∃! other, other ∈ documents ∧ frame.frameId ∈ frameIds other

/-- The cancellation command is a document of its own as well. -/
theorem cancellation_shared : ∃ documents,
    parseRch sampleContext cancelledRequest [] = .ok documents ∧
      documents.length < maxDocuments ∧ ¬ Exclusive cancelledRequest documents := by
  obtain ⟨cancelled, opened, hparsed, hcancelled, hopened⟩ := cancelledRequest_parsed
  simp only [placeOf, Prod.mk.injEq] at hcancelled hopened
  refine ⟨_, hparsed, by simp [maxDocuments], fun h => ?_⟩
  have hcommand : ∃ frame ∈ commands cancelledRequest, frame.frameId = 2 ∧
      frame.offset + frame.raw.length = 26 := by
    decide +kernel
  obtain ⟨frame, hframe, hid, hstop⟩ := hcommand
  have hsession : opened ∈ sessions [cancelled, opened] :=
    List.mem_filter.mpr ⟨by simp, hopened.1⟩
  obtain ⟨other, -, honly⟩ := h opened hsession 0 26 hopened.2.2.1 hopened.2.2.2 frame hframe
    (Nat.zero_le _) hstop.le
  have hfirst := honly cancelled ⟨by simp, by simp [hcancelled.2.1, hid]⟩
  have hsecond := honly opened ⟨by simp, by simp [hopened.2.1, hid]⟩
  have hsame := hcancelled.2.1.symm.trans ((hfirst.trans hsecond.symm) ▸ hopened.2.1)
  simp at hsame

end RetailPrintGuard.Parser.RchSegmentation

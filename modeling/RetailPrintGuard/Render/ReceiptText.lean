import Mathlib.Data.List.DropRight
import RetailPrintGuard.Common.PrintedText
import RetailPrintGuard.Library.Substitution

/-! # The readable text of a receipt -/
namespace RetailPrintGuard.Render.ReceiptText
open RetailPrintGuard.Library.Regex RetailPrintGuard.Library.Substitution
open RetailPrintGuard.Common.PrintedText (Text lit join isWhitespace stripBy)

/-! ## The projection -/

def notClosing : Pattern := .char (· != '>')

/-- `<OCR:[^>]+>(.*?)</OCR:[^>]+>`, where `.` is any character -/
def ocrBlock : Pattern :=
  seqs [lit "<OCR:", many1 notClosing, lit ">", .group "text" (.rep false 0 none (.char fun _ => true)),
    lit "</OCR:", many1 notClosing, lit ">"]

/-- `<(?:ESC/POS|BYTE):[^>]*>` -/
def technicalToken : Pattern :=
  seqs [lit "<", alts [lit "ESC/POS", lit "BYTE"], lit ":", many notClosing, lit ">"]

/-- `[\x00-\x08\x0b\x0c\x0e-\x1f\x7f]` -/
def isControlCharacter (x : Char) : Bool :=
  let n := x.toNat
  n ≤ 8 || n == 11 || n == 12 || (14 ≤ n && n ≤ 31) || n == 127

/-- `replace("\r\n", "\n").replace("\r", "\n")` -/
def newlines : Text → Text
  | '\r' :: '\n' :: rest => '\n' :: newlines rest
  | '\r' :: rest => '\n' :: newlines rest
  | x :: rest => x :: newlines rest
  | [] => []

/-- The text without annotations and control characters. -/
def cleaned (maximumCharacters : Nat) (normalizedText : Text) : Text :=
  let source := newlines (normalizedText.take maximumCharacters)
  let source := sub ocrBlock (fun m => (m.group "text").getD []) source
  let source := sub technicalToken (fun _ => []) source
  source.filter fun x => !isControlCharacter x

def rstrip (line : Text) : Text := line.rdropWhile isWhitespace

def strip (line : Text) : Text := stripBy isWhitespace line

/-- The loop over the lines: of blank lines in a row the first is kept. -/
def projectLines : Bool → List Text → List Text
  | _, [] => []
  | previousBlank, value :: rest =>
    let line := rstrip value
    let blank := (strip line).isEmpty
    if blank && previousBlank then projectLines previousBlank rest
    else (if blank then [] else line) :: projectLines blank rest

def readable (source : Text) : Text :=
  let output := (projectLines true (source.splitOn '\n')).rdropWhile List.isEmpty
  stripBy (· == '\n') (join ['\n'] output)

/-- `receipt_text` -/
def receiptText (normalizedText : Text) (maximumCharacters : Nat := 250000) : Except String Text :=
  if maximumCharacters < 1 then .error "maximum_characters must be positive"
  else .ok (readable (cleaned maximumCharacters normalizedText))

/-- The text holds a block or a token that a removal takes. -/
def annotated (text : Text) : Bool :=
  (search ocrBlock text).isSome || (search technicalToken text).isSome

/-! ## Texts of the patterns -/

theorem lang_lit {text : String} {t : List Char} : Lang (lit text) t ↔ t = text.toList := by
  unfold lit literal
  induction text.toList generalizing t with
  | nil => rfl
  | cons c cs ih =>
    simp only [List.foldr_cons, Lang, ih]
    constructor
    · rintro ⟨_, _, rfl, ⟨x, rfl, hx⟩, rfl⟩
      rw [beq_iff_eq.mp hx]
      rfl
    · rintro rfl
      exact ⟨[c], cs, rfl, ⟨c, rfl, beq_self_eq_true c⟩, rfl⟩

theorem lang_chars {greedy : Bool} {lo : Nat} {p : Char → Bool} {t : List Char} :
    Lang (.rep greedy lo none (.char p)) t ↔ lo ≤ t.length ∧ ∀ x ∈ t, p x = true := by
  have hflatten : ∀ u : List Char, (u.map ([·])).flatten = u := fun u => by
    induction u with
    | nil => rfl
    | cons x u ih => rw [List.map_cons, List.flatten_cons, ih, List.singleton_append]
  refine ⟨chars_of_lang, fun ⟨hlo, hp⟩ => ⟨t.map ([·]), (hflatten t).symm, ?_, fun _ h => ?_, ?_⟩⟩
  · rwa [List.length_map]
  · cases h
  · intro u hu
    obtain ⟨x, hx, rfl⟩ := List.mem_map.mp hu
    exact ⟨x, rfl, hp x hx⟩

theorem lang_seq_lit {text : String} {r : Pattern} {t : List Char} :
    Lang (.seq (lit text) r) t ↔ ∃ u, t = text.toList ++ u ∧ Lang r u := by
  constructor
  · rintro ⟨_, u, rfl, hlit, hu⟩
    exact ⟨u, by rw [lang_lit.mp hlit], hu⟩
  · rintro ⟨u, rfl, hu⟩
    exact ⟨_, u, rfl, lang_lit.mpr rfl, hu⟩

/-- A text without `>` and one that ends it. -/
theorem lang_closed {lo : Nat} {r : Pattern} {t : List Char} :
    Lang (.seq (.rep true lo none notClosing) (.seq (lit ">") r)) t ↔
      ∃ body u, t = body ++ '>' :: u ∧ lo ≤ body.length ∧ '>' ∉ body ∧ Lang r u := by
  have hbody : ∀ body : List Char, (∀ x ∈ body, (x != '>') = true) ↔ '>' ∉ body := fun body =>
    ⟨fun h hmem => by simpa using h _ hmem, fun h x hx => bne_iff_ne.mpr fun heq => h (heq ▸ hx)⟩
  constructor
  · rintro ⟨body, _, rfl, hchars, hrest⟩
    obtain ⟨u, rfl, hu⟩ := lang_seq_lit.mp hrest
    obtain ⟨hlo, hp⟩ := lang_chars.mp hchars
    exact ⟨body, u, rfl, hlo, (hbody body).mp hp, hu⟩
  · rintro ⟨body, u, rfl, hlo, hp, hu⟩
    exact ⟨body, _, rfl, lang_chars.mpr ⟨hlo, (hbody body).mpr hp⟩, lang_seq_lit.mpr ⟨u, rfl, hu⟩⟩

theorem lang_technicalToken {t : List Char} : Lang technicalToken t ↔
    ∃ name ∈ ["<ESC/POS:".toList, "<BYTE:".toList], ∃ body, '>' ∉ body ∧
      t = name ++ (body ++ ['>']) := by
  constructor
  · intro h
    obtain ⟨_, rfl, name, _, rfl, hname, hmark⟩ := lang_seq_lit.mp h
    obtain ⟨_, rfl, hclosed⟩ := lang_seq_lit.mp hmark
    obtain ⟨body, _, rfl, -, hbody, rfl⟩ := lang_closed.mp hclosed
    rcases hname with hname | hname <;> rw [lang_lit.mp hname]
    · exact ⟨_, .head _, body, hbody, by simp⟩
    · exact ⟨_, .tail _ (.head _), body, hbody, by simp⟩
  · rintro ⟨name, hname, body, hbody, rfl⟩
    have hrest : Lang (.seq (many notClosing) (.seq (lit ">") .empty)) (body ++ ['>']) :=
      lang_closed.mpr ⟨body, [], rfl, Nat.zero_le _, hbody, rfl⟩
    simp only [List.mem_cons, List.not_mem_nil, or_false] at hname
    rcases hname with rfl | rfl
    · exact lang_seq_lit.mpr ⟨_, rfl, _, _, rfl, .inl (lang_lit.mpr rfl),
        lang_seq_lit.mpr ⟨_, rfl, hrest⟩⟩
    · exact lang_seq_lit.mpr ⟨_, rfl, _, _, rfl, .inr (lang_lit.mpr rfl),
        lang_seq_lit.mpr ⟨_, rfl, hrest⟩⟩

theorem lang_ocrBlock {t : List Char} : Lang ocrBlock t ↔
    ∃ label content label', label ≠ [] ∧ '>' ∉ label ∧ label' ≠ [] ∧ '>' ∉ label' ∧
      t = "<OCR:".toList ++ (label ++ '>' :: (content ++ ("</OCR:".toList ++ (label' ++ ['>'])))) := by
  constructor
  · intro h
    obtain ⟨_, rfl, hopen⟩ := lang_seq_lit.mp h
    obtain ⟨label, _, rfl, hne, hlabel, content, _, rfl, -, hmark⟩ := lang_closed.mp hopen
    obtain ⟨_, rfl, hclose⟩ := lang_seq_lit.mp hmark
    obtain ⟨label', _, rfl, hne', hlabel', rfl⟩ := lang_closed.mp hclose
    exact ⟨label, content, label', List.ne_nil_of_length_pos hne, hlabel,
      List.ne_nil_of_length_pos hne', hlabel', rfl⟩
  · rintro ⟨label, content, label', hne, hlabel, hne', hlabel', rfl⟩
    refine lang_seq_lit.mpr ⟨_, rfl, lang_closed.mpr ⟨label, _, rfl,
      List.length_pos_of_ne_nil hne, hlabel, content, _, rfl, ?_, ?_⟩⟩
    · exact (@lang_chars false 0 (fun _ => true) content).mpr ⟨Nat.zero_le _, fun _ _ => rfl⟩
    · exact lang_seq_lit.mpr ⟨_, rfl, lang_closed.mpr ⟨label', [], rfl,
        List.length_pos_of_ne_nil hne', hlabel', rfl⟩⟩

/-! ## White space around line breaks -/

/-- The first text is the second one, with white space before some of its line
breaks and at its end. -/
inductive Spaced : Text → Text → Prop
  | nil : Spaced [] []
  | keep {s t : Text} (x : Char) (h : Spaced s t) : Spaced (x :: s) (x :: t)
  | space {s t : Text} {x : Char} (hx : isWhitespace x = true) (ht : ∀ y ∈ t.head?, y = '\n')
      (h : Spaced s t) : Spaced (x :: s) t

theorem Spaced.spaces {s t space : Text} (h : Spaced s t)
    (hspace : ∀ x ∈ space, isWhitespace x = true) (ht : ∀ y ∈ t.head?, y = '\n') :
    Spaced (space ++ s) t := by
  induction space with
  | nil => exact h
  | cons x space ih =>
    rw [List.forall_mem_cons] at hspace
    exact .space hspace.1 ht (ih hspace.2)

theorem Spaced.text {s t : Text} (h : Spaced s t) (text : Text) :
    Spaced (text ++ s) (text ++ t) := by
  induction text with
  | nil => exact h
  | cons x text ih => exact .keep x ih

theorem Spaced.split {s u v : Text} (h : Spaced s (u ++ v)) :
    ∃ a b, s = a ++ b ∧ Spaced a u ∧ Spaced b v := by
  generalize ht : u ++ v = t at h
  induction h generalizing u with
  | nil =>
    obtain ⟨rfl, rfl⟩ := List.append_eq_nil_iff.mp ht
    exact ⟨[], [], rfl, .nil, .nil⟩
  | @keep s t x h ih =>
    cases u with
    | nil => exact ⟨[], x :: s, rfl, .nil, (show v = x :: t from ht) ▸ .keep x h⟩
    | cons y u =>
      obtain ⟨rfl, htail⟩ := List.cons.inj ht
      obtain ⟨a, b, rfl, ha, hb⟩ := ih htail
      exact ⟨y :: a, b, rfl, .keep y ha, hb⟩
  | @space s t x hx hhead h ih =>
    cases u with
    | nil => exact ⟨[], x :: s, rfl, .nil, (show v = t from ht) ▸ .space hx hhead h⟩
    | cons y u =>
      obtain ⟨a, b, rfl, ha, hb⟩ := ih ht
      refine ⟨x :: a, b, rfl, .space hx (fun z hz => hhead z ?_) ha, hb⟩
      rw [← ht]
      exact hz

/-- No white space is before a text without line breaks, or in it. -/
theorem Spaced.of_line {s line t : Text} (hline : '\n' ∉ line) (h : Spaced s (line ++ t)) :
    ∃ s', s = line ++ s' ∧ Spaced s' t := by
  induction line generalizing s with
  | nil => exact ⟨s, rfl, h⟩
  | cons x line ih =>
    rw [List.mem_cons, not_or] at hline
    generalize ht : x :: line ++ t = whole at h
    cases h with
    | nil => cases ht
    | keep y h =>
      obtain ⟨rfl, rfl⟩ := List.cons.inj ht
      obtain ⟨s', rfl, hs'⟩ := ih hline.2 h
      exact ⟨s', rfl, hs'⟩
    | space hy hhead h =>
      subst ht
      exact absurd (hhead x rfl).symm hline.1

theorem Spaced.mem {s t : Text} (h : Spaced s t) {x : Char} (hx : x ∈ s)
    (hspace : isWhitespace x = false) : x ∈ t := by
  induction h with
  | nil => exact hx
  | keep y h ih =>
    rcases List.mem_cons.mp hx with rfl | hx
    · exact List.mem_cons_self
    · exact List.mem_cons_of_mem _ (ih hx)
  | space hy hhead h ih =>
    rcases List.mem_cons.mp hx with rfl | hx
    · rw [hy] at hspace
      cases hspace
    · exact ih hx

theorem Spaced.sublist {s t : Text} (h : Spaced s t) : t.Sublist s := by
  induction h with
  | nil => exact .refl _
  | keep x h ih => exact ih.cons_cons x
  | space hx hhead h ih => exact ih.cons _

/-- A mark and a body up to its `>` have nothing but white space between them. -/
theorem Spaced.closed {s mark body rest : Text} (hmark : '\n' ∉ mark) (hbody : '>' ∉ body)
    (h : Spaced s (mark ++ (body ++ '>' :: rest))) :
    ∃ body' s', s = mark ++ (body' ++ '>' :: s') ∧ '>' ∉ body' ∧ body.length ≤ body'.length ∧
      Spaced s' rest := by
  obtain ⟨_, rfl, hopened⟩ := h.of_line hmark
  obtain ⟨body', _, rfl, hspaced, hend⟩ := hopened.split
  obtain ⟨s', rfl, hrest⟩ := (show Spaced _ (['>'] ++ rest) from hend).of_line (by decide)
  exact ⟨body', s', rfl, fun hmem => hbody (hspaced.mem hmem (by decide)), hspaced.sublist.length_le,
    hrest⟩

/-- The pattern has a text wherever it has one without the white space. -/
def Tolerant (r : Pattern) : Prop :=
  ∀ {s t : Text}, Lang r t → ∀ {rest}, Spaced s (t ++ rest) → ∃ t', Lang r t' ∧ t' <:+: s

theorem technicalToken_tolerant : Tolerant technicalToken := by
  intro s t ht rest h
  obtain ⟨name, hname, body, hbody, rfl⟩ := lang_technicalToken.mp ht
  have hline : '\n' ∉ name := by
    simp only [List.mem_cons, List.not_mem_nil, or_false] at hname
    rcases hname with rfl | rfl <;> decide
  rw [List.append_assoc, List.append_assoc, List.singleton_append] at h
  obtain ⟨body', s', rfl, hbody', -, -⟩ := h.closed hline hbody
  refine ⟨name ++ (body' ++ ['>']), lang_technicalToken.mpr ⟨name, hname, body', hbody', rfl⟩,
    [], s', ?_⟩
  simp

theorem ocrBlock_tolerant : Tolerant ocrBlock := by
  intro s t ht rest h
  obtain ⟨label, content, label', hne, hlabel, hne', hlabel', rfl⟩ := lang_ocrBlock.mp ht
  simp only [List.append_assoc, List.cons_append, List.nil_append] at h
  obtain ⟨first, s₁, rfl, hfirst, hlength, hopened⟩ := h.closed (by decide) hlabel
  obtain ⟨middle, s₂, rfl, -, hcontent⟩ := hopened.split
  obtain ⟨last, s₃, rfl, hlast, hlength', -⟩ := hcontent.closed (by decide) hlabel'
  have hpos := List.length_pos_of_ne_nil hne
  have hpos' := List.length_pos_of_ne_nil hne'
  refine ⟨_, lang_ocrBlock.mpr ⟨first, middle, last, List.ne_nil_of_length_pos (by omega), hfirst,
    List.ne_nil_of_length_pos (by omega), hlast, rfl⟩, [], s₃, ?_⟩
  simp

/-- Taking white space away makes no match. -/
theorem Tolerant.search {r : Pattern} (hr : plain r = true) (h : Tolerant r) {s t : Text}
    (hspaced : Spaced s t) (hnone : Library.Regex.search r s = none) :
    Library.Regex.search r t = none := by
  refine (search_eq_none hr).mpr fun u hu => ?_
  rintro ⟨before, behind, rfl⟩
  rw [List.append_assoc] at hspaced
  obtain ⟨a, b, rfl, -, hb⟩ := hspaced.split
  obtain ⟨u', hu', hpart⟩ := h hu hb
  exact (search_eq_none hr).mp hnone u' hu'
    (List.IsInfix.trans hpart (List.suffix_append a b).isInfix)

/-! ## Lines -/

/-- The lines behind the first one, each after its line break. -/
def tailText (lines : List Text) : Text := lines.flatMap ('\n' :: ·)

theorem join_cons (line : Text) (lines : List Text) :
    join ['\n'] (line :: lines) = line ++ tailText lines := by
  induction lines generalizing line with
  | nil => simp [join, tailText]
  | cons next lines ih =>
    have hnext := ih next
    rw [join] at hnext ⊢
    rw [List.intersperse_cons_cons, List.flatten_cons, List.flatten_cons, hnext]
    rfl

theorem tailText_head (lines : List Text) : ∀ y ∈ (tailText lines).head?, y = '\n' := by
  cases lines with
  | nil => exact fun _ hy => by cases hy
  | cons line lines => exact fun _ hy => (Option.some.inj hy).symm

theorem rstrip_spaces (value : Text) :
    ∃ space, value = rstrip value ++ space ∧ ∀ x ∈ space, isWhitespace x = true :=
  ⟨value.rtakeWhile isWhitespace, List.rdropWhile_append_rtakeWhile.symm,
    fun _ => List.mem_rtakeWhile_imp⟩

theorem rstrip_idempotent (value : Text) : rstrip (rstrip value) = rstrip value :=
  List.rdropWhile_idempotent isWhitespace value

theorem strip_isEmpty (value : Text) : (strip (rstrip value)).isEmpty = (rstrip value).isEmpty := by
  rw [Bool.eq_iff_iff, List.isEmpty_iff, List.isEmpty_iff]
  constructor
  · intro h
    have hall := List.rdropWhile_eq_nil_iff.mp h
    have hnil : (rstrip value).dropWhile isWhitespace = [] := by
      rw [← List.dropWhile_idempotent]
      exact List.dropWhile_eq_nil_iff.mpr hall
    have hspaces := List.rdropWhile_eq_nil_iff.mpr (List.dropWhile_eq_nil_iff.mp hnil)
    exact (rstrip_idempotent value).symm.trans hspaces
  · intro h
    rw [h]
    rfl

theorem projectLines_cons (previousBlank : Bool) (value : Text) (rest : List Text) :
    projectLines previousBlank (value :: rest) =
      if rstrip value = [] then
        if previousBlank then projectLines true rest else [] :: projectLines true rest
      else rstrip value :: projectLines false rest := by
  rw [projectLines, strip_isEmpty]
  by_cases h : rstrip value = []
  · cases previousBlank <;> simp [h]
  · rw [List.isEmpty_eq_false_iff.mpr h]
    simp [h]

/-- The lines without the blank ones at the end. -/
def trim (lines : List Text) : List Text := lines.rdropWhile List.isEmpty

theorem trim_cons (line : Text) (lines : List Text) : trim (line :: lines) =
    if trim lines = [] ∧ line = [] then [] else line :: trim lines := by
  simp only [trim, List.rdropWhile, List.reverse_cons, List.dropWhile_append,
    List.reverse_eq_nil_iff]
  by_cases h : lines.reverse.dropWhile List.isEmpty = []
  · by_cases hline : line = [] <;> simp [h, hline]
  · simp [h, List.isEmpty_iff]

/-- What is taken from the lines behind the first one is white space before line
breaks, and at the end. -/
theorem spaced_tail (previousBlank : Bool) (lines : List Text) :
    Spaced (tailText lines) (tailText (trim (projectLines previousBlank lines))) := by
  induction lines generalizing previousBlank with
  | nil => exact .nil
  | cons value rest ih =>
    obtain ⟨space, hvalue, hspace⟩ := rstrip_spaces value
    have hbehind : ∀ b, Spaced (space ++ tailText rest) (tailText (trim (projectLines b rest))) :=
      fun b => (ih b).spaces hspace (tailText_head _)
    have hlines : tailText (value :: rest) =
        '\n' :: (rstrip value ++ (space ++ tailText rest)) := by
      rw [← List.append_assoc, ← hvalue]
      rfl
    rw [hlines, projectLines_cons]
    by_cases hblank : rstrip value = []
    · rw [hblank, if_pos rfl, List.nil_append]
      cases previousBlank with
      | true => exact .space (by decide) (tailText_head _) (hbehind true)
      | false =>
        rw [if_neg (by decide), trim_cons]
        split
        · next hnil =>
          have h := hbehind true
          rw [hnil.1] at h
          exact .space (by decide) (tailText_head []) h
        · exact .keep '\n' (hbehind true)
    · rw [if_neg hblank, trim_cons, if_neg fun h => hblank h.2]
      exact .keep '\n' ((hbehind false).text _)

theorem spaced_lines (lines : List Text) : ∃ lead s, join ['\n'] lines = lead ++ s ∧
    Spaced s (join ['\n'] (trim (projectLines true lines))) := by
  induction lines with
  | nil => exact ⟨[], [], rfl, .nil⟩
  | cons value rest ih =>
    obtain ⟨space, hvalue, hspace⟩ := rstrip_spaces value
    rw [projectLines_cons, join_cons]
    by_cases hblank : rstrip value = []
    · rw [if_pos hblank, if_pos rfl]
      cases rest with
      | nil => exact ⟨value ++ [], [], by rw [List.append_nil]; rfl, .nil⟩
      | cons next rest =>
        obtain ⟨lead, s, hjoin, hspaced⟩ := ih
        refine ⟨value ++ '\n' :: lead, s, ?_, hspaced⟩
        rw [List.append_assoc, List.cons_append, ← hjoin, join_cons]
        rfl
    · rw [if_neg hblank, trim_cons, if_neg fun h => hblank h.2, join_cons]
      have hbehind := (spaced_tail false rest).spaces hspace (tailText_head _)
      have hline : value ++ tailText rest = rstrip value ++ (space ++ tailText rest) := by
        rw [← List.append_assoc, ← hvalue]
      rw [hline]
      exact ⟨[], _, rfl, hbehind.text _⟩

/-- Stripped lines without line breaks, and no blank line behind another one. -/
def Tidy : Bool → List Text → Prop
  | _, [] => True
  | previousBlank, line :: rest =>
    (line = [] → previousBlank = false) ∧ rstrip line = line ∧ '\n' ∉ line ∧ Tidy line.isEmpty rest

theorem projectLines_tidy {lines : List Text} (h : ∀ value ∈ lines, '\n' ∉ value)
    (previousBlank : Bool) : Tidy previousBlank (projectLines previousBlank lines) := by
  induction lines generalizing previousBlank with
  | nil => trivial
  | cons value rest ih =>
    rw [List.forall_mem_cons] at h
    have hrest := ih h.2
    rw [projectLines_cons]
    split
    · split
      · next hprevious => exact hprevious ▸ hrest true
      · next hprevious =>
        exact ⟨fun _ => Bool.eq_false_iff.mpr hprevious, rfl, List.not_mem_nil, hrest true⟩
    · next hblank =>
      refine ⟨fun hnil => absurd hnil hblank, rstrip_idempotent value,
        fun hmem => h.1 ((List.rdropWhile_prefix isWhitespace _).subset hmem), ?_⟩
      rw [show (rstrip value).isEmpty = false by simpa using hblank]
      exact hrest false

theorem Tidy.trim {previousBlank : Bool} {lines : List Text} (h : Tidy previousBlank lines) :
    Tidy previousBlank (trim lines) := by
  induction lines generalizing previousBlank with
  | nil => trivial
  | cons line rest ih =>
    obtain ⟨hblank, hstrip, hbreak, hrest⟩ := h
    rw [trim_cons]
    split
    · trivial
    · exact ⟨hblank, hstrip, hbreak, ih hrest⟩

theorem Tidy.projectLines {previousBlank : Bool} {lines : List Text} (h : Tidy previousBlank lines) :
    projectLines previousBlank lines = lines := by
  induction lines generalizing previousBlank with
  | nil => rfl
  | cons line rest ih =>
    obtain ⟨hblank, hstrip, -, hrest⟩ := h
    have hrest := ih hrest
    rw [projectLines_cons, hstrip]
    cases line with
    | nil => rw [if_pos rfl, hblank rfl, if_neg (by decide)]; exact congrArg _ hrest
    | cons x line => rw [if_neg (by simp)]; exact congrArg _ hrest

theorem Tidy.breaks {previousBlank : Bool} {lines : List Text} (h : Tidy previousBlank lines) :
    ∀ line ∈ lines, '\n' ∉ line := by
  induction lines generalizing previousBlank with
  | nil => exact fun _ hline => absurd hline List.not_mem_nil
  | cons line rest ih => exact List.forall_mem_cons.mpr ⟨h.2.2.1, ih h.2.2.2⟩

/-! ## The readable text -/

theorem not_mem_of_mem_splitOn {source line : Text} (h : line ∈ source.splitOn '\n') :
    '\n' ∉ line := by
  induction source generalizing line with
  | nil =>
    rw [List.splitOn_nil, List.mem_singleton] at h
    rw [h]
    exact List.not_mem_nil
  | cons x source ih =>
    rw [List.splitOn_cons_eq_if_modifyHead] at h
    split at h
    · rcases List.mem_cons.mp h with rfl | h
      · exact List.not_mem_nil
      · exact ih h
    · next hx =>
      cases hsplit : source.splitOn '\n' with
      | nil => exact absurd hsplit (List.splitOn_ne_nil _ _)
      | cons first rest =>
        rw [hsplit] at ih
        rw [hsplit, List.modifyHead_cons] at h
        rcases List.mem_cons.mp h with rfl | h
        · rw [List.mem_cons, not_or]
          exact ⟨fun heq => hx (beq_iff_eq.mpr heq.symm), ih List.mem_cons_self⟩
        · exact ih (List.mem_cons_of_mem _ h)

theorem trim_idempotent (lines : List Text) : trim (trim lines) = trim lines :=
  List.rdropWhile_idempotent _ lines

theorem tidy_trim (source : Text) :
    Tidy true (trim (projectLines true (source.splitOn '\n'))) :=
  (projectLines_tidy (fun _ => not_mem_of_mem_splitOn) true).trim

/-- Stripped lines without blank ones at the end do not end in white space. -/
theorem tail_end {previousBlank : Bool} {line : Text} {lines : List Text}
    (hline : rstrip line = line) (h : Tidy previousBlank lines) (htrim : trim lines = lines)
    (hne : line ≠ [] ∨ lines ≠ []) :
    ∃ x, (line ++ tailText lines).getLast? = some x ∧ isWhitespace x = false := by
  induction lines generalizing previousBlank line with
  | nil =>
    have hne : line ≠ [] := hne.resolve_right fun h => h rfl
    have hlast := List.rdropWhile_eq_self_iff.mp (show line.rdropWhile isWhitespace = line from hline) hne
    refine ⟨line.getLast hne, ?_, Bool.eq_false_iff.mpr hlast⟩
    rw [tailText, List.flatMap_nil, List.append_nil]
    exact List.getLast?_eq_some_getLast hne
  | cons next rest ih =>
    obtain ⟨-, hstrip, -, hrest⟩ := h
    rw [trim_cons] at htrim
    split at htrim
    · cases htrim
    · next hkept =>
      have hrestTrim := (List.cons.inj htrim).2
      rw [hrestTrim] at hkept
      have hnext : next ≠ [] ∨ rest ≠ [] := by
        by_contra hnone
        rw [not_or, not_not, not_not] at hnone
        exact hkept hnone.symm
      obtain ⟨x, hx, hspace⟩ := ih hstrip hrest hrestTrim hnext
      refine ⟨x, ?_, hspace⟩
      rw [show tailText (next :: rest) = '\n' :: (next ++ tailText rest) from rfl,
        List.getLast?_append, List.getLast?_cons, hx]
      rfl

theorem stripBy_eq_self {p : Char → Bool} {text : Text} (hhead : ∀ x ∈ text.head?, p x = false)
    (hlast : ∀ x ∈ text.getLast?, p x = false) : stripBy p text = text := by
  have hdrop : text.dropWhile p = text := by
    cases text with
    | nil => rfl
    | cons x text => rw [List.dropWhile_cons_of_neg (Bool.eq_false_iff.mp (hhead x rfl))]
  rw [stripBy, hdrop]
  refine List.rdropWhile_eq_self_iff.mpr fun hne => ?_
  exact Bool.eq_false_iff.mp (hlast _ (List.getLast?_eq_some_getLast hne))

/-- The breaks at both ends are gone before the last strip. -/
theorem readable_eq (source : Text) :
    readable source = join ['\n'] (trim (projectLines true (source.splitOn '\n'))) := by
  have htidy := tidy_trim source
  have htrim := trim_idempotent (projectLines true (source.splitOn '\n'))
  rw [readable]
  change stripBy _ (join ['\n'] (trim _)) = _
  generalize trim (projectLines true (source.splitOn '\n')) = lines at htidy htrim ⊢
  cases lines with
  | nil => rfl
  | cons line rest =>
    obtain ⟨hblank, hstrip, hbreak, hrest⟩ := htidy
    have hne : line ≠ [] := fun h => Bool.noConfusion (hblank h)
    have hrestTrim : trim rest = rest := by
      rw [trim_cons, if_neg fun h => hne h.2] at htrim
      exact (List.cons.inj htrim).2
    rw [join_cons]
    refine stripBy_eq_self (fun x hx => ?_) fun x hx => ?_
    · rw [List.head?_append_of_ne_nil _ hne] at hx
      exact beq_eq_false_iff_ne.mpr fun heq => hbreak (heq ▸ List.mem_of_mem_head? hx)
    · obtain ⟨y, hy, hspace⟩ := tail_end hstrip hrest hrestTrim (.inl hne)
      rw [hy] at hx
      obtain rfl := Option.some.inj hx
      refine beq_eq_false_iff_ne.mpr fun heq => ?_
      rw [heq] at hspace
      cases hspace

theorem splitOn_join {lines : List Text} (hbreak : ∀ line ∈ lines, '\n' ∉ line) (hne : lines ≠ []) :
    (join ['\n'] lines).splitOn '\n' = lines :=
  List.splitOn_intercalate '\n' hbreak hne

theorem join_splitOn (source : Text) : join ['\n'] (source.splitOn '\n') = source :=
  List.intercalate_splitOn '\n'

/-- White space at the front, before line breaks and at the end is all that goes. -/
theorem spaced_readable (source : Text) :
    ∃ lead rest, source = lead ++ rest ∧ Spaced rest (readable source) := by
  obtain ⟨lead, rest, hsource, hspaced⟩ := spaced_lines (source.splitOn '\n')
  rw [join_splitOn] at hsource
  exact ⟨lead, rest, hsource, readable_eq source ▸ hspaced⟩

theorem readable_idempotent (source : Text) : readable (readable source) = readable source := by
  have htidy := tidy_trim source
  have htrim := trim_idempotent (projectLines true (source.splitOn '\n'))
  rw [readable_eq (readable source), readable_eq source]
  generalize trim (projectLines true (source.splitOn '\n')) = lines at htidy htrim ⊢
  cases lines with
  | nil => decide
  | cons line rest =>
    rw [splitOn_join htidy.breaks (List.cons_ne_nil line rest), htidy.projectLines, htrim]

/-! ## The cleaned text -/

theorem not_mem_newlines (text : Text) : '\r' ∉ newlines text := by
  fun_induction newlines text with
  | case1 rest ih => exact List.not_mem_cons_of_ne_of_not_mem (by decide) ih
  | case2 rest hnext ih => exact List.not_mem_cons_of_ne_of_not_mem (by decide) ih
  | case3 x rest hbreak hreturn ih =>
    exact List.not_mem_cons_of_ne_of_not_mem (fun heq => hreturn heq.symm) ih
  | case4 => exact List.not_mem_nil

theorem length_newlines_le (text : Text) : (newlines text).length ≤ text.length := by
  fun_induction newlines text with
  | case1 rest ih => exact (Nat.succ_le_succ ih).trans (Nat.le_succ _)
  | case2 rest hnext ih => exact Nat.succ_le_succ ih
  | case3 x rest hbreak hreturn ih => exact Nat.succ_le_succ ih
  | case4 => exact Nat.le_refl _

theorem newlines_eq_self {text : Text} (h : '\r' ∉ text) : newlines text = text := by
  fun_induction newlines text with
  | case1 rest ih => exact absurd List.mem_cons_self h
  | case2 rest hnext ih => exact absurd List.mem_cons_self h
  | case3 x rest hbreak hreturn ih => rw [ih fun hmem => h (List.mem_cons_of_mem _ hmem)]
  | case4 => rfl

theorem not_captures_lit (text : String) (name : String) (t : Text) :
    ¬Captures (lit text) name t := by
  unfold lit literal
  induction text.toList with
  | nil => exact id
  | cons c cs ih => exact fun h => h.elim id ih

/-- The text of a block is shorter than the block. -/
theorem ocrBlock_shrinks (before after : Text) (m : Match)
    (h : matchAt ocrBlock before after = some m) :
    ((m.group "text").getD []).length < m.text.length := by
  obtain ⟨t, u, htext, hopen, hgroups⟩ := matchAt_seq (not_captures_lit "<OCR:") h
  rw [htext, lang_lit.mp hopen, List.length_append]
  cases hgroup : m.group "text" with
  | none => exact Nat.lt_of_lt_of_le (by decide) (Nat.le_add_right _ _)
  | some content =>
    have hlength := (hgroups _ (mem_of_lookup hgroup)).length_le
    exact Nat.lt_of_le_of_lt hlength (Nat.lt_add_of_pos_left (by decide))

theorem technicalToken_shrinks (before after : Text) (m : Match)
    (h : matchAt technicalToken before after = some m) : ([] : Text).length < m.text.length := by
  obtain ⟨t, u, htext, hopen, -⟩ := matchAt_seq (not_captures_lit "<") h
  rw [htext, lang_lit.mp hopen, List.length_append]
  exact Nat.lt_of_lt_of_le (by decide) (Nat.le_add_right _ _)

/-- The text without blocks and tokens, control characters still in it. -/
def bare (source : Text) : Text :=
  sub technicalToken (fun _ => []) (sub ocrBlock (fun m => (m.group "text").getD []) source)

theorem cleaned_eq (maximumCharacters : Nat) (normalizedText : Text) :
    cleaned maximumCharacters normalizedText =
      (bare (newlines (normalizedText.take maximumCharacters))).filter
        fun x => !isControlCharacter x := rfl

theorem length_bare_le (source : Text) : (bare source).length ≤ source.length :=
  (length_subFrom_le technicalToken_shrinks).trans (length_subFrom_le ocrBlock_shrinks)

theorem mem_of_mem_bare {source : Text} {x : Char} (h : x ∈ bare source) : x ∈ source := by
  refine mem_subFrom (fun m hm y hy => ?_) (mem_subFrom (fun _ _ y hy => ?_) h)
  · cases hgroup : m.group "text" with
    | none =>
      rw [hgroup] at hy
      exact absurd hy List.not_mem_nil
    | some content =>
      rw [hgroup] at hy
      exact (hm.group hgroup).2.subset hy
  · exact absurd hy List.not_mem_nil

theorem bare_eq_self {source : Text} (h : annotated source = false) : bare source = source := by
  rw [annotated, Bool.or_eq_false_iff, Option.isSome_eq_false_iff, Option.isSome_eq_false_iff,
    Option.isNone_iff_eq_none, Option.isNone_iff_eq_none] at h
  rw [bare, sub_of_none h.1, sub_of_none h.2]

theorem length_bare_lt {source : Text} (h : annotated source = true) :
    (bare source).length < source.length := by
  by_cases hblock : search ocrBlock source = none
  · have htoken : search technicalToken source ≠ none := by
      rw [annotated, hblock, Option.isSome_none, Bool.false_or] at h
      exact Option.isSome_iff_ne_none.mp h
    rw [bare, sub_of_none hblock]
    exact length_sub_lt technicalToken_shrinks htoken
  · exact Nat.lt_of_le_of_lt (length_subFrom_le technicalToken_shrinks)
      (length_sub_lt ocrBlock_shrinks hblock)

/-- Within the limit, and without the characters the clean-up takes. -/
structure Clean (maximumCharacters : Nat) (text : Text) : Prop where
  length : text.length ≤ maximumCharacters
  characters : ∀ x ∈ text, isControlCharacter x = false ∧ x ≠ '\r'

theorem clean_cleaned (maximumCharacters : Nat) (normalizedText : Text) :
    Clean maximumCharacters (cleaned maximumCharacters normalizedText) where
  length := by
    rw [cleaned_eq]
    calc _ ≤ _ := List.length_filter_le _ _
      _ ≤ _ := length_bare_le _
      _ ≤ _ := length_newlines_le _
      _ ≤ _ := List.length_take_le _ _
  characters x hx := by
    rw [cleaned_eq, List.mem_filter, Bool.not_eq_true'] at hx
    exact ⟨hx.2, fun heq => not_mem_newlines _ (heq ▸ mem_of_mem_bare hx.1)⟩

section Clean
variable {maximumCharacters : Nat} {text : Text} (hclean : Clean maximumCharacters text)
include hclean

theorem Clean.sublist {text' : Text} (h : text'.Sublist text) : Clean maximumCharacters text' where
  length := h.length_le.trans hclean.length
  characters x hx := hclean.characters x (h.subset hx)

theorem Clean.cleaned_eq : cleaned maximumCharacters text =
    (bare text).filter fun x => !isControlCharacter x := by
  rw [ReceiptText.cleaned_eq, List.take_of_length_le hclean.length,
    newlines_eq_self fun hmem => (hclean.characters _ hmem).2 rfl]

theorem Clean.cleaned_eq_self (h : annotated text = false) :
    cleaned maximumCharacters text = text := by
  rw [hclean.cleaned_eq, bare_eq_self h]
  refine List.filter_eq_self.mpr fun x hx => ?_
  rw [(hclean.characters x hx).1]
  rfl

theorem Clean.length_cleaned_lt (h : annotated text = true) :
    (cleaned maximumCharacters text).length < text.length := by
  rw [hclean.cleaned_eq]
  exact Nat.lt_of_le_of_lt (List.length_filter_le _ _) (length_bare_lt h)

end Clean

theorem readable_sublist (source : Text) : (readable source).Sublist source := by
  obtain ⟨lead, rest, hsource, hspaced⟩ := spaced_readable source
  have h := hspaced.sublist.trans (List.sublist_append_right lead rest)
  rwa [← hsource] at h

/-- The readable form makes no block and no token. -/
theorem annotated_readable {source : Text} (h : annotated source = false) :
    annotated (readable source) = false := by
  obtain ⟨lead, rest, rfl, hspaced⟩ := spaced_readable source
  have hrest : ∀ r, plain r = true → Tolerant r → search r (lead ++ rest) = none →
      search r (readable (lead ++ rest)) = none := by
    intro r hr htolerant hnone
    refine htolerant.search hr hspaced ((search_eq_none hr).mpr fun t ht hpart => ?_)
    exact (search_eq_none hr).mp hnone t ht
      (List.IsInfix.trans hpart (List.suffix_append lead rest).isInfix)
  rw [annotated, Bool.or_eq_false_iff, Option.isSome_eq_false_iff, Option.isSome_eq_false_iff,
    Option.isNone_iff_eq_none, Option.isNone_iff_eq_none] at h ⊢
  exact ⟨hrest _ rfl ocrBlock_tolerant h.1, hrest _ rfl technicalToken_tolerant h.2⟩

theorem isControlCharacter_of_low {x : Char} (h : x.toNat ≤ 31 ∨ x.toNat = 127)
    (hkept : isControlCharacter x = false) : x = '\t' ∨ x = '\n' ∨ x = '\r' := by
  have hcode : x.toNat = 9 ∨ x.toNat = 10 ∨ x.toNat = 13 := by
    simp only [isControlCharacter, Bool.or_eq_false_iff, Bool.and_eq_false_iff,
      decide_eq_false_iff_not, beq_eq_false_iff_ne] at hkept
    omega
  exact hcode.imp (fun h => Char.toNat_inj.mp h)
    (Or.imp (fun h => Char.toNat_inj.mp h) fun h => Char.toNat_inj.mp h)

/-- A receipt text is settled exactly when no block or token is left in it, and
none is left in it when the removals leave none; of the control characters the
line break and the tabulator stay. -/
theorem settled_iff {normalizedText result : Text} {maximumCharacters : Nat}
    (h : receiptText normalizedText maximumCharacters = .ok result) :
    (∀ x ∈ result, x.toNat ≤ 31 ∨ x.toNat = 127 → x = '\t' ∨ x = '\n') ∧
      (annotated (cleaned maximumCharacters normalizedText) = false → annotated result = false) ∧
      (receiptText result maximumCharacters = .ok result ↔ annotated result = false) := by
  rw [receiptText] at h
  split at h
  · cases h
  next hpositive =>
  obtain rfl := Except.ok.inj h
  have hclean := (clean_cleaned maximumCharacters normalizedText).sublist (readable_sublist _)
  refine ⟨fun x hx hlow => ?_, annotated_readable, ?_⟩
  · obtain ⟨hkept, hreturn⟩ := hclean.characters x hx
    rcases isControlCharacter_of_low hlow hkept with heq | heq | heq
    · exact .inl heq
    · exact .inr heq
    · exact absurd heq hreturn
  · rw [receiptText, if_neg hpositive, Except.ok.injEq]
    constructor
    · intro hfixed
      by_contra hleft
      have hshorter := hclean.length_cleaned_lt (Bool.eq_true_of_not_eq_false hleft)
      have hlength := (readable_sublist (cleaned maximumCharacters
        (readable (cleaned maximumCharacters normalizedText)))).length_le
      rw [hfixed] at hlength
      exact absurd hshorter (Nat.not_lt.mpr hlength)
    · intro hnone
      rw [hclean.cleaned_eq_self hnone]
      exact readable_idempotent _

end RetailPrintGuard.Render.ReceiptText

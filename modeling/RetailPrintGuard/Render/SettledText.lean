import RetailPrintGuard.Library.RegexGroups
import RetailPrintGuard.Library.Tags
import RetailPrintGuard.Render.ReceiptText

/-! # Settled receipts

Where the annotations of a text stand apart from each other, the removals leave
none, and the receipt text is settled. -/
namespace RetailPrintGuard.Render.SettledText
open RetailPrintGuard.Common.PrintedText (Text lit)
open RetailPrintGuard.Library.Regex RetailPrintGuard.Library.RegexGroups
open RetailPrintGuard.Library.Substitution
open RetailPrintGuard.Library.Tags RetailPrintGuard.Render.ReceiptText

/-! ## Texts whose annotations stand apart -/

/-- Annotations are named `OCR:`, `ESC/POS:` and `BYTE:`, and a block ends with `/OCR:`. -/
def marks : Marks Char where
  opening := '<'
  closing := '>'
  dropped := isControlCharacter
  inert x := !"<>EBO/".toList.contains x && !isControlCharacter x
  closing_kept := by decide
  inert_kept x hx := by
    rw [Bool.and_eq_true, Bool.not_eq_true', Bool.not_eq_true'] at hx
    refine ⟨?_, ?_, hx.2⟩
    · rintro rfl
      exact absurd hx.1 (by decide)
    · rintro rfl
      exact absurd hx.1 (by decide)

def ocrMark : Text := ['<', 'O', 'C', 'R', ':']

/-- `</OCR:[^>]+>`, at the end of a block -/
def ocrClose : Pattern := seqs [lit "</OCR:", many1 notClosing, lit ">"]

def unmarked (x : Char) : Bool := x != '<' && x != '>'

/-- The text begins with the end of a block, and no mark opens within it. -/
def closesOcr (text : Text) : Bool :=
  let rest := text.drop 6
  "</OCR:".toList.isPrefixOf text && !(rest.takeWhile unmarked).isEmpty &&
    (rest.dropWhile unmarked).head? == some '>'

/-- No block opens in an open one. -/
def unnested : Bool → Text → Bool
  | _, [] => true
  | opened, x :: rest =>
    if ocrMark.isPrefixOf (x :: rest) then !opened && unnested true rest
    else unnested (opened && !closesOcr (x :: rest)) rest

/-- Every `<` that a `>` follows opens a tag without `<` and control characters,
or stands before a character that no annotation begins with; and no OCR block
opens in an open one. -/
def apart (text : Text) : Bool := marks.clear text && unnested false text

/-- Between two marks that open a block one is closed. -/
def Unnested (text : Text) : Prop :=
  ∀ before body behind, text = before ++ (ocrMark ++ (body ++ (ocrMark ++ behind))) →
    ∃ close, Lang ocrClose close ∧ close <:+: body

theorem lang_ocrClose {t : Text} : Lang ocrClose t ↔
    ∃ label, label ≠ [] ∧ '>' ∉ label ∧ t = '<' :: (("/OCR:".toList ++ label) ++ ['>']) := by
  constructor
  · intro h
    obtain ⟨_, rfl, hclosed⟩ := lang_seq_lit.mp h
    obtain ⟨label, _, rfl, hne, hlabel, rfl⟩ := lang_closed.mp hclosed
    exact ⟨label, List.ne_nil_of_length_pos hne, hlabel, rfl⟩
  · rintro ⟨label, hne, hlabel, rfl⟩
    exact lang_seq_lit.mpr ⟨_, rfl, lang_closed.mpr ⟨label, [], rfl, List.length_pos_of_ne_nil hne,
      hlabel, rfl⟩⟩

theorem closesOcr_spec {text : Text} (h : closesOcr text = true) :
    ∃ tail rest, text = '<' :: (tail ++ rest) ∧ '<' ∉ tail ∧ Lang ocrClose ('<' :: tail) := by
  simp only [closesOcr, Bool.and_eq_true, Bool.not_eq_true', List.isEmpty_eq_false_iff,
    List.isPrefixOf_iff_prefix, beq_iff_eq] at h
  obtain ⟨⟨⟨rest, rfl⟩, hlabel⟩, hclosing⟩ := h
  rw [List.drop_left' (by rfl)] at hlabel hclosing
  obtain ⟨behind, hbehind⟩ := List.head?_eq_some_iff.mp hclosing
  have hrest := List.takeWhile_append_dropWhile (p := unmarked) (l := rest)
  have hmarks : ∀ x ∈ rest.takeWhile unmarked, x ≠ '<' ∧ x ≠ '>' :=
    fun x hx => by simpa [unmarked] using List.mem_takeWhile_imp hx
  generalize rest.takeWhile unmarked = label at hlabel hmarks hrest
  rw [hbehind] at hrest
  refine ⟨("/OCR:".toList ++ label) ++ ['>'], behind, ?_, ?_, lang_ocrClose.mpr ⟨label, hlabel, ?_, rfl⟩⟩
  · rw [← hrest]
    simp
  · simp only [List.mem_append, not_or]
    exact ⟨⟨by decide, fun hx => (hmarks _ hx).1 rfl⟩, by decide⟩
  · exact fun hx => (hmarks _ hx).2 rfl

theorem closesOcr_of_ne {x : Char} {rest : Text} (h : x ≠ '<') : closesOcr (x :: rest) = false := by
  simp [closesOcr, List.isPrefixOf, h.symm]

theorem unnested_suffix {opened : Bool} {before behind : Text}
    (h : unnested opened (before ++ behind) = true) : ∃ opened', unnested opened' behind = true := by
  induction before generalizing opened with
  | nil => exact ⟨opened, h⟩
  | cons x before ih =>
    rw [List.cons_append, unnested] at h
    split at h
    · exact ih (Bool.and_eq_true_iff.mp h).2
    · exact ih h

/-- In an open block the next mark stands behind the end of it. -/
theorem close_of_opened {body behind : Text} (h : unnested true (body ++ (ocrMark ++ behind)) = true) :
    ∃ close, Lang ocrClose close ∧ close <:+: body := by
  induction body with
  | nil => simp [unnested, ocrMark] at h
  | cons x body ih =>
    rw [List.cons_append, unnested] at h
    split at h
    · cases h
    · cases hcloses : closesOcr (x :: (body ++ (ocrMark ++ behind))) with
      | false =>
        obtain ⟨close, hclose, hpart⟩ := ih (by simpa [hcloses] using h)
        exact ⟨close, hclose, hpart.trans (List.suffix_cons x body).isInfix⟩
      | true =>
        obtain ⟨tail, rest, htext, htail, hclose⟩ := closesOcr_spec hcloses
        refine ⟨_, hclose, ?_⟩
        obtain ⟨rfl, hsplit⟩ := List.cons.inj htext
        obtain ⟨u, rfl, hu⟩ | ⟨u, rfl, -⟩ := List.append_eq_append_iff.mp hsplit
        · cases u with
          | nil => simp
          | cons y u => exact absurd (by simp [(List.cons.inj hu).1.symm]) htail
        · exact (List.prefix_append ('<' :: tail) u).isInfix

theorem unnested_spec {text : Text} (h : unnested false text = true) : Unnested text := by
  rintro before body behind rfl
  obtain ⟨opened, hopened⟩ := unnested_suffix h
  exact @close_of_opened body behind (by
    simpa [unnested, ocrMark, closesOcr_of_ne] using (Bool.and_eq_true_iff.mp hopened).2)

theorem Unnested.part {text part : Text} (h : Unnested text) (hpart : part <:+: text) :
    Unnested part := by
  obtain ⟨u, v, rfl⟩ := hpart
  rintro before body behind rfl
  exact h (u ++ before) body (behind ++ v) (by simp)

/-! ## Line breaks -/

theorem newlines_cons {x : Char} {text : Text} (hx : x ≠ '\r') :
    newlines (x :: text) = x :: newlines text :=
  newlines.eq_3 x text (fun _ heq _ => hx heq) hx

theorem newlines_return {text : Text} (h : text.head? ≠ some '\n') :
    newlines ('\r' :: text) = '\n' :: newlines text :=
  newlines.eq_2 text fun rest heq => h (by rw [heq]; rfl)

theorem newlines_eq_nil {text : Text} (h : newlines text = []) : text = [] := by
  fun_cases newlines text with
  | case4 => rfl
  | _ => simp_all [newlines]

/-- Another character than a line break stays in its place. -/
theorem newlines_split {text before behind : Text} {x : Char} (hx : x ≠ '\n')
    (h : newlines text = before ++ x :: behind) :
    ∃ u v, text = u ++ x :: v ∧ newlines u = before ∧ newlines v = behind := by
  fun_induction newlines text generalizing before with
  | case1 rest ih =>
    cases before with
    | nil => exact absurd (List.cons.inj h).1.symm hx
    | cons y before =>
      obtain ⟨rfl, htail⟩ := List.cons.inj h
      obtain ⟨u, v, rfl, hu, hv⟩ := ih htail
      exact ⟨'\r' :: '\n' :: u, v, rfl, by rw [newlines, hu], hv⟩
  | case2 rest hnext ih =>
    cases before with
    | nil => exact absurd (List.cons.inj h).1.symm hx
    | cons y before =>
      obtain ⟨rfl, htail⟩ := List.cons.inj h
      obtain ⟨u, v, rfl, hu, hv⟩ := ih htail
      refine ⟨'\r' :: u, v, rfl, ?_, hv⟩
      rw [newlines_return, hu]
      intro hhead
      obtain ⟨rest, rfl⟩ := List.head?_eq_some_iff.mp hhead
      exact hnext (rest ++ x :: v) rfl
  | case3 y rest hbreak hreturn ih =>
    cases before with
    | nil =>
      obtain ⟨rfl, rfl⟩ := List.cons.inj h
      exact ⟨[], rest, rfl, rfl, rfl⟩
    | cons z before =>
      obtain ⟨rfl, htail⟩ := List.cons.inj h
      obtain ⟨u, v, rfl, hu, hv⟩ := ih htail
      refine ⟨y :: u, v, rfl, ?_, hv⟩
      rw [newlines_cons (fun heq => hreturn heq), hu]
  | case4 => simp at h

theorem newlines_append {u v : Text} {x : Char} (hx : x ≠ '\n' ∧ x ≠ '\r') :
    newlines (u ++ x :: v) = newlines u ++ x :: newlines v := by
  fun_induction newlines u with
  | case1 rest ih => exact congrArg ('\n' :: ·) ih
  | case2 rest hnext ih =>
    rw [List.cons_append, newlines_return, ih, List.cons_append]
    cases rest with
    | nil => exact fun heq => hx.1 (Option.some.inj heq)
    | cons y rest => exact fun heq => hnext rest (by rw [Option.some.inj heq])
  | case3 y rest hbreak hreturn ih =>
    rw [List.cons_append, newlines_cons fun heq => hreturn heq, ih, List.cons_append]
  | case4 => exact newlines_cons hx.2

theorem newlines_mark {mark text behind : Text} (hmark : '\n' ∉ mark)
    (h : newlines text = mark ++ behind) : ∃ v, text = mark ++ v ∧ newlines v = behind := by
  induction mark generalizing text with
  | nil => exact ⟨text, rfl, h⟩
  | cons x mark ih =>
    obtain ⟨u, v, rfl, hu, hv⟩ := @newlines_split text [] (mark ++ behind) x
      (fun heq => hmark (heq ▸ List.mem_cons_self)) h
    obtain rfl := newlines_eq_nil hu
    obtain ⟨rest, rfl, hrest⟩ := ih (fun hmem => hmark (List.mem_cons_of_mem _ hmem)) hv
    exact ⟨rest, rfl, hrest⟩

theorem mem_newlines {text : Text} {x : Char} (h : x ∈ newlines text) : x ∈ text ∨ x = '\n' := by
  fun_induction newlines text with
  | case1 rest ih =>
    obtain rfl | h := List.mem_cons.mp h
    · exact Or.inr rfl
    · exact (ih h).imp_left fun h => List.mem_cons_of_mem _ (List.mem_cons_of_mem _ h)
  | case2 rest hnext ih =>
    obtain rfl | h := List.mem_cons.mp h
    · exact Or.inr rfl
    · exact (ih h).imp_left (List.mem_cons_of_mem _)
  | case3 y rest hbreak hreturn ih =>
    obtain rfl | h := List.mem_cons.mp h
    · exact Or.inl List.mem_cons_self
    · exact (ih h).imp_left (List.mem_cons_of_mem _)
  | case4 => cases h

theorem not_closing {text body : Text} (h : newlines text = body) (hbody : '>' ∉ body) : '>' ∉ text := by
  subst h
  refine fun hmem => hbody ?_
  obtain ⟨u, v, rfl⟩ := List.append_of_mem hmem
  rw [newlines_append (by decide)]
  exact List.mem_append_right _ List.mem_cons_self

theorem clear_newlines {text : Text} (h : marks.Clear text) : marks.Clear (newlines text) := by
  intro before body behind hsplit hbody
  obtain ⟨u, _, rfl, -, hopened⟩ := newlines_split (by decide) hsplit
  obtain ⟨b, v, rfl, hb, -⟩ := newlines_split (by decide) hopened
  obtain hsolid | hbegins := h u b v rfl (not_closing hb hbody)
  · refine Or.inl fun x hx => ?_
    obtain hx | rfl := mem_newlines (hb ▸ hx)
    · exact hsolid x hx
    · exact ⟨by decide, by decide⟩
  · refine Or.inr (hb ▸ ?_)
    cases b with
    | nil => cases hbegins
    | cons x b =>
      by_cases hx : x = '\r'
      · subst hx
        cases b with
        | nil => decide
        | cons y b =>
          by_cases hy : y = '\n'
          · subst hy
            rfl
          · have hnext : (y :: b).head? ≠ some '\n' := fun heq => hy (Option.some.inj heq)
            rw [newlines_return hnext]
            rfl
      · rw [newlines_cons hx]
        exact hbegins

theorem lang_newlines {close : Text} (h : Lang ocrClose close) {u v : Text} :
    ∃ close', Lang ocrClose close' ∧ close' <:+: newlines (u ++ (close ++ v)) := by
  obtain ⟨label, hne, hlabel, rfl⟩ := lang_ocrClose.mp h
  refine ⟨_, lang_ocrClose.mpr ⟨newlines label, fun heq => hne (newlines_eq_nil heq), fun hmem => ?_, rfl⟩,
    newlines u, newlines v, ?_⟩
  · exact (mem_newlines hmem).elim hlabel (by decide)
  · have hlabelled : newlines (label ++ '>' :: v) = newlines label ++ '>' :: newlines v :=
      newlines_append (by decide)
    simp [newlines_append, newlines_cons, hlabelled]

theorem unnested_newlines {text : Text} (h : Unnested text) : Unnested (newlines text) := by
  intro before body behind hsplit
  obtain ⟨u, v, rfl, -, hopened⟩ := newlines_split (by decide) hsplit
  obtain ⟨_, rfl, hbody⟩ := newlines_mark (show '\n' ∉ ['O', 'C', 'R', ':'] by decide) hopened
  obtain ⟨b, w, rfl, rfl, hagain⟩ := newlines_split (by decide) hbody
  obtain ⟨_, rfl, -⟩ := newlines_mark (show '\n' ∉ ['O', 'C', 'R', ':'] by decide) hagain
  obtain ⟨close, hclose, p, q, rfl⟩ := h u b _ rfl
  rw [List.append_assoc]
  exact lang_newlines hclose

/-! ## The removals -/

/-- No text of the pattern lies ahead. -/
def Unmatched (r : Pattern) (text : Text) : Prop := ∀ t, Lang r t → ¬t <+: text

theorem unmatched_of_none {r : Pattern} (hr : plain r = true) {before after : Text}
    (h : matchAt r before after = none) : Unmatched r after := by
  rintro t ht ⟨rest, rfl⟩
  have hsome := @matchAt_isSome r hr before t rest ht
  rw [h] at hsome
  cases hsome

/-- A match of a block: its text is the shortest that a block can have there. -/
theorem matchAt_ocrBlock {before after : Text} {m : Match}
    (h : matchAt ocrBlock before after = some m) :
    ∃ label content close, label ≠ [] ∧ '>' ∉ label ∧ Lang ocrClose close ∧
      after = ocrMark ++ (label ++ '>' :: (content ++ (close ++ m.rest))) ∧
      (m.group "text").getD [] = content ∧
      ∀ u v, content = u ++ v → v ≠ [] → Unmatched ocrClose (v ++ (close ++ m.rest)) := by
  obtain ⟨t, hgroup⟩ := captured_matchAt h (show captures ocrBlock "text" = true by decide)
  obtain ⟨c', hhead, rfl⟩ := Option.map_eq_some_iff.mp h
  obtain ⟨b₁, hb₁, hhead⟩ := head_seq hhead
  obtain ⟨b₂, hb₂, hhead⟩ := head_seq hhead
  obtain ⟨b₃, hb₃, hhead⟩ := head_seq hhead
  obtain ⟨content, close, hcontent, hclose, hgroups, hshort⟩ :=
    head_capture (show plain ocrClose = true from rfl) hhead
  obtain ⟨_, hmark, hopen⟩ := run_sound _ hb₁
  obtain ⟨label, hlabelled, hlabel⟩ := run_sound _ hb₂
  obtain ⟨_, hclosing, hclosed⟩ := run_sound _ hb₃
  obtain rfl := lang_lit.mp hopen
  obtain rfl := lang_lit.mp hclosed
  obtain ⟨hne, hchars⟩ := lang_chars.mp hlabel
  -- nothing is captured before the text of the block
  have hnone : ∀ g, g ∉ b₃.groups := by
    intro g hg
    obtain hg | hg := hclosing.groups g hg
    · obtain hg | hg := hlabelled.groups g hg
      · obtain hg | hg := hmark.groups g hg
        · exact absurd hg List.not_mem_nil
        · exact not_captures_lit _ _ _ hg.1
      · exact hg.1
    · exact not_captures_lit _ _ _ hg.1
  have hclosesNone : ∀ g : String × Text, ¬Captures ocrClose g.1 g.2 := by
    rintro g (hg | hg | hg | hg)
    · exact not_captures_lit _ _ _ hg
    · exact hg
    · exact not_captures_lit _ _ _ hg
    · exact hg
  have hcaptured : t = content := by
    obtain hg | hg | hg := hgroups _ (mem_of_lookup hgroup)
    · exact (Prod.mk.inj hg).2
    · exact absurd hg (hnone _)
    · exact absurd hg (hclosesNone _)
  refine ⟨label, content, close, List.ne_nil_of_length_pos hne, fun hmem => ?_, hclose, ?_, ?_, hshort⟩
  · exact absurd (hchars '>' hmem) (by decide)
  · have hafter := hmark.after
    rw [hlabelled.after, hclosing.after, hcontent] at hafter
    exact hafter
  · rw [hgroup, Option.getD_some, hcaptured]

theorem Unnested.tail {x : Char} {text : Text} (h : Unnested (x :: text)) : Unnested text :=
  h.part (List.suffix_cons x text).isInfix

/-- A text that begins with a mark is no part of one without the mark. -/
theorem infix_of_unmarked {t u v : Text} (h : '<' :: t <:+: u ++ v) (hu : '<' ∉ u) : '<' :: t <:+: v := by
  obtain ⟨before, behind, hsplit⟩ := h
  rw [List.append_assoc] at hsplit
  obtain ⟨w, rfl, hw⟩ | ⟨w, rfl, hw⟩ := List.append_eq_append_iff.mp hsplit
  · cases w with
    | nil => exact ⟨[], behind, by simpa using hw⟩
    | cons x w =>
      obtain ⟨rfl, -⟩ := List.cons.inj hw
      exact absurd (List.mem_append_right before List.mem_cons_self) hu
  · exact ⟨w, behind, by rw [hw, List.append_assoc]⟩

section
variable {label content close rest u v : Text}

/-- No block begins in another. -/
theorem unmatched_content (hlabel : '>' ∉ label)
    (hclear : marks.Clear (ocrMark ++ (label ++ '>' :: (u ++ (v ++ (close ++ rest))))))
    (hunnested : Unnested (ocrMark ++ (label ++ '>' :: (u ++ (v ++ (close ++ rest))))))
    (hshort : ∀ p q, u ++ v = p ++ q → q ≠ [] → Unmatched ocrClose (q ++ (close ++ rest))) :
    Unmatched ocrBlock (v ++ (close ++ rest)) := by
  rintro t ht ⟨behind, hsplit⟩
  obtain ⟨label', content', label'', -, -, -, -, rfl⟩ := lang_ocrBlock.mp ht
  rw [← hsplit] at hunnested
  have hnested : ocrMark ++ (label ++ '>' :: (u ++ ("<OCR:".toList ++ (label' ++ '>' :: (content' ++
      ("</OCR:".toList ++ (label'' ++ ['>'])))) ++ behind))) = [] ++ (ocrMark ++ ((label ++ '>' :: u) ++
        (ocrMark ++ (label' ++ '>' :: (content' ++ ("</OCR:".toList ++ (label'' ++ ['>'])) ++ behind))))) := by
    simp [ocrMark]
  obtain ⟨ending, hending, hpart⟩ := hunnested [] (label ++ '>' :: u) _ hnested
  -- a block was closed before, and there the outer one would have ended
  have hsolid : marks.Solid (['O', 'C', 'R', ':'] ++ label) :=
    (hclear [] (['O', 'C', 'R', ':'] ++ label) _ rfl (by simpa [marks] using hlabel)).resolve_right
      fun hbegins => absurd (show marks.inert 'O' = true from hbegins) (by decide)
  have hunmarked : '<' ∉ label ++ ['>'] := by
    simp only [List.mem_append, not_or]
    exact ⟨fun hmem => (hsolid '<' (List.mem_append_right _ hmem)).1 rfl, by decide⟩
  obtain ⟨tail, rfl⟩ : ∃ tail, ending = '<' :: tail := by
    obtain ⟨endLabel, -, -, rfl⟩ := lang_ocrClose.mp hending
    exact ⟨_, rfl⟩
  have hwhole : '<' :: tail <:+: (label ++ ['>']) ++ u := by simpa using hpart
  obtain ⟨p, q, rfl⟩ := infix_of_unmarked hwhole hunmarked
  refine hshort p ('<' :: tail ++ (q ++ v)) (by simp) (by simp) ('<' :: tail) hending ?_
  rw [List.append_assoc]
  exact List.prefix_append _ _

end

/-- The removal of blocks erases the tags around them. -/
theorem erased_ocrBlock {fuel : Nat} {before after : Text} (hfuel : after.length ≤ fuel)
    (hclear : marks.Clear after) (hunnested : Unnested after) :
    Erased marks (Unmatched ocrBlock) after
      (subFrom ocrBlock (fun m => (m.group "text").getD []) fuel before after) := by
  induction fuel generalizing before after with
  | zero =>
    obtain rfl := List.eq_nil_of_length_eq_zero (Nat.le_zero.mp hfuel)
    exact .nil
  | succ fuel ih =>
    cases after with
    | nil => exact .nil
    | cons x after =>
      rw [subFrom]
      split
      · next m hm =>
        obtain ⟨label, content, close, -, hlabel, hclose, hafter, hgroup, hshort⟩ := matchAt_ocrBlock hm
        rw [hafter] at hclear hunnested hfuel ⊢
        rw [hgroup]
        have hrest : m.rest <:+ ocrMark ++ (label ++ '>' :: (content ++ (close ++ m.rest))) :=
          ⟨ocrMark ++ (label ++ '>' :: (content ++ close)), by simp⟩
        have hlength : m.rest.length ≤ fuel := by
          simp [ocrMark] at hfuel
          omega
        have hout := @ih (m.text.reverse ++ before) m.rest hlength (hclear.part hrest.isInfix)
          (hunnested.part hrest.isInfix)
        obtain ⟨closeLabel, -, hcloseLabel, rfl⟩ := lang_ocrClose.mp hclose
        have htag : '>' ∉ ['O', 'C', 'R', ':'] ++ label := by simpa using hlabel
        refine .tag (m := marks) htag (Erased.keeps (fun u v hsplit _ => ?_) ?_)
        · subst hsplit
          rw [List.append_assoc] at hclear hunnested
          exact unmatched_content hlabel hclear hunnested hshort
        · have hcloseTag : '>' ∉ "/OCR:".toList ++ closeLabel := by simpa using hcloseLabel
          simpa [marks] using Erased.tag (m := marks) hcloseTag hout
      · next hm =>
        exact .keep x (unmatched_of_none rfl hm)
          (ih (Nat.le_of_succ_le_succ hfuel) hclear.tail hunnested.tail)

/-- A token is a tag, and its name begins it. -/
theorem tag_of_token {t : Text} (h : Lang technicalToken t) :
    ∃ body, '>' ∉ body ∧ marks.begins body = false ∧ t = '<' :: (body ++ ['>']) := by
  obtain ⟨name, hname, body, hbody, rfl⟩ := lang_technicalToken.mp h
  simp only [List.mem_cons, List.not_mem_nil, or_false] at hname
  obtain rfl | rfl := hname
  · exact ⟨"ESC/POS:".toList ++ body, by simpa using hbody, rfl, by simp⟩
  · exact ⟨"BYTE:".toList ++ body, by simpa using hbody, rfl, by simp⟩

/-- The removal of tokens erases them. -/
theorem erased_technicalToken {fuel : Nat} {before after : Text} (hfuel : after.length ≤ fuel) :
    Erased marks (Unmatched technicalToken) after (subFrom technicalToken (fun _ => []) fuel before after) := by
  induction fuel generalizing before after with
  | zero =>
    obtain rfl := List.eq_nil_of_length_eq_zero (Nat.le_zero.mp hfuel)
    exact .nil
  | succ fuel ih =>
    cases after with
    | nil => exact .nil
    | cons x after =>
      rw [subFrom]
      split
      · next m hm =>
        obtain ⟨hsound, htext, -⟩ := matchAt_sound hm
        obtain ⟨body, hbody, -, htoken⟩ := tag_of_token hsound.lang
        have hsplit : m.text ++ m.rest = '<' :: (body ++ '>' :: m.rest) := by
          rw [htoken]
          simp
        rw [htext, hsplit] at hfuel ⊢
        refine Erased.tag (m := marks) hbody (ih ?_)
        simp at hfuel
        omega
      · next hm => exact .keep x (unmatched_of_none rfl hm) (ih (Nat.le_of_succ_le_succ hfuel))

theorem erased_filter (text : Text) :
    Erased marks (fun _ => True) text (text.filter fun x => !isControlCharacter x) := by
  induction text with
  | nil => exact .nil
  | cons x text ih =>
    cases hx : isControlCharacter x with
    | true => simpa [hx] using Erased.drop (m := marks) hx ih
    | false => simpa [hx] using Erased.keep x trivial ih

/-! ## What is left -/

section
variable {K : Text → Prop} {s t u : Text}

theorem clear_of_erased (hs : marks.Clear s) (h : Erased marks K s t) : marks.Clear t := by
  rintro before body behind rfl hbody
  obtain hbegins | ⟨-, -, -, hsolid, -⟩ := h.trace hs rfl hbody
  · exact Or.inr hbegins
  · exact Or.inl hsolid

/-- The trace of a tag whose name begins it. -/
theorem trace_tag {before body behind : Text} (hs : marks.Clear s)
    (h : Erased marks K s (before ++ '<' :: (body ++ '>' :: behind))) (hbody : '>' ∉ body)
    (hbegins : marks.begins body = false) : ∃ before' behind',
      s = before' ++ '<' :: (body ++ '>' :: behind') ∧ K ('<' :: (body ++ '>' :: behind')) ∧
        Erased marks K behind' behind := by
  obtain hinert | ⟨before', behind', hsplit, -, hkept, hrest⟩ := h.trace hs rfl hbody
  · rw [hbegins] at hinert
    cases hinert
  · exact ⟨before', behind', hsplit, hkept, hrest⟩

/-- A token that is left stood in the text. -/
theorem token_of_erased (hs : marks.Clear s) (h : Erased marks K s t) (hu : Lang technicalToken u)
    (hpart : u <:+: t) : ∃ rest, rest <:+ s ∧ u <+: rest ∧ K rest := by
  obtain ⟨body, hbody, hbegins, rfl⟩ := tag_of_token hu
  obtain ⟨before, behind, rfl⟩ := hpart
  obtain ⟨before', behind', rfl, hkept, -⟩ :=
    trace_tag hs (show Erased marks K s (before ++ '<' :: (body ++ '>' :: behind)) by simpa using h)
      hbody hbegins
  exact ⟨_, List.suffix_append _ _, ⟨behind', by simp⟩, hkept⟩

/-- A block that is left comes from one that stood in the text. -/
theorem block_of_erased (hs : marks.Clear s) (h : Erased marks K s t) (hu : Lang ocrBlock u)
    (hpart : u <:+: t) : ∃ v rest, Lang ocrBlock v ∧ rest <:+ s ∧ v <+: rest ∧ K rest := by
  obtain ⟨label, content, label', hne, hlabel, hne', hlabel', rfl⟩ := lang_ocrBlock.mp hu
  obtain ⟨before, behind, rfl⟩ := hpart
  have hopen : '>' ∉ "OCR:".toList ++ label := by simpa using hlabel
  have hclose : '>' ∉ "/OCR:".toList ++ label' := by simpa using hlabel'
  obtain ⟨before', rest, rfl, hkept, hrest⟩ := trace_tag hs
    (show Erased marks K s (before ++ '<' :: (("OCR:".toList ++ label) ++ '>' :: (content ++
      '<' :: (("/OCR:".toList ++ label') ++ '>' :: behind)))) by simpa using h) hopen rfl
  have hclear : marks.Clear rest :=
    hs.part (List.IsSuffix.trans (tag_suffix (m := marks) rest _) (List.suffix_append _ _)).isInfix
  obtain ⟨content', rest', rfl, -, -⟩ := trace_tag hclear hrest hclose rfl
  refine ⟨_, _, lang_ocrBlock.mpr ⟨label, content', label', hne, hlabel, hne', hlabel', rfl⟩,
    List.suffix_append _ _, ⟨rest', ?_⟩, hkept⟩
  simp

end

/-- Where the annotations stand apart, none is left. -/
theorem not_annotated_cleaned {normalizedText : Text} (h : apart normalizedText = true)
    (maximumCharacters : Nat) : annotated (cleaned maximumCharacters normalizedText) = false := by
  obtain ⟨hclear, hunnested⟩ := Bool.and_eq_true_iff.mp h
  have htaken := (List.take_prefix maximumCharacters normalizedText).isInfix
  have hclear₀ := clear_newlines ((clear_of_clear hclear).part htaken)
  have hunnested₀ := unnested_newlines ((unnested_spec hunnested).part htaken)
  generalize hsource : newlines (normalizedText.take maximumCharacters) = source at hclear₀ hunnested₀
  have hblocks : Erased marks (Unmatched ocrBlock) source
      (sub ocrBlock (fun m => (m.group "text").getD []) source) :=
    erased_ocrBlock (Nat.le_refl _) hclear₀ hunnested₀
  have hclear₁ := clear_of_erased hclear₀ hblocks
  have htokens : Erased marks (Unmatched technicalToken) _ (bare source) :=
    erased_technicalToken (Nat.le_refl _)
  have hclear₂ := clear_of_erased hclear₁ htokens
  have hfilter := erased_filter (bare source)
  rw [cleaned_eq, hsource, annotated, Bool.or_eq_false_iff, Option.isSome_eq_false_iff,
    Option.isSome_eq_false_iff, Option.isNone_iff_eq_none, Option.isNone_iff_eq_none,
    search_eq_none rfl, search_eq_none rfl]
  constructor
  · intro u hu hpart
    obtain ⟨v, rest, hv, hrest, hprefix, -⟩ := block_of_erased hclear₂ hfilter hu hpart
    obtain ⟨w, rest', hw, hrest', hprefix', -⟩ :=
      block_of_erased hclear₁ htokens hv (List.IsInfix.trans hprefix.isInfix hrest.isInfix)
    obtain ⟨x, rest'', hx, -, hprefix'', hunmatched⟩ :=
      block_of_erased hclear₀ hblocks hw (hprefix'.isInfix.trans hrest'.isInfix)
    exact hunmatched x hx hprefix''
  · intro u hu hpart
    obtain ⟨rest, hrest, hprefix, -⟩ := token_of_erased hclear₂ hfilter hu hpart
    obtain ⟨rest', -, hprefix', hunmatched⟩ :=
      token_of_erased hclear₁ htokens hu (List.IsInfix.trans hprefix.isInfix hrest.isInfix)
    exact hunmatched u hu hprefix'

/-- **Receipts whose annotations stand apart are settled**: none is left in them,
and the receipt text is its own receipt text. In general it is exactly where none
is left; of the control characters the line break and the tabulator stay. -/
theorem receipt_text_settled {normalizedText result : Text} {maximumCharacters : Nat}
    (h : receiptText normalizedText maximumCharacters = .ok result) :
    (∀ x ∈ result, x.toNat ≤ 31 ∨ x.toNat = 127 → x = '\t' ∨ x = '\n') ∧
      (apart normalizedText = true →
        annotated result = false ∧ receiptText result maximumCharacters = .ok result) ∧
      (receiptText result maximumCharacters = .ok result ↔ annotated result = false) := by
  obtain ⟨hcharacters, hnone, hsettled⟩ := settled_iff h
  refine ⟨hcharacters, fun hapart => ?_, hsettled⟩
  have hleft := hnone (not_annotated_cleaned hapart maximumCharacters)
  exact ⟨hleft, hsettled.mpr hleft⟩

/-- A ticket with its annotations, a sum that is less than another and a cut end. -/
def ticket : Text :=
  "<BYTE:0x01>2x Insalata <OCR:raster-1>LOGO <b>\r\n</OCR:raster-1>3 < 4\x01\n\n<ESC/POS:CUT><ESC".toList

theorem receipt_text_settled_ticket :
    receiptText "2x Insalata LOGO <b>\n3 < 4\n\n<ESC".toList =
        .ok "2x Insalata LOGO <b>\n3 < 4\n\n<ESC".toList ∧
      annotated "2x Insalata LOGO <b>\n3 < 4\n\n<ESC".toList = false := by
  obtain ⟨-, hsettled, -⟩ := receipt_text_settled
    (show receiptText ticket = .ok "2x Insalata LOGO <b>\n3 < 4\n\n<ESC".toList by decide +kernel)
  obtain ⟨hnone, hfixed⟩ := hsettled (by decide +kernel)
  exact ⟨hfixed, hnone⟩

/-- A tabulator between two columns stays, and a token around a token is left. -/
theorem not_always_settled :
    (∃ result, receiptText "a\tb".toList = .ok result ∧ '\t' ∈ result) ∧
      ∃ result, receiptText "<BY<BYTE:01>TE:02>".toList = .ok result ∧ annotated result = true ∧
        receiptText result ≠ .ok result :=
  ⟨⟨"a\tb".toList, by decide +kernel, by decide⟩,
    "<BYTE:02>".toList, by decide +kernel, by decide +kernel, by decide +kernel⟩

end RetailPrintGuard.Render.SettledText

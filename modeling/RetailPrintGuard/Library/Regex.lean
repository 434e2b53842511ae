import Mathlib.Data.List.Basic
import Mathlib.Order.Lattice
import Mathlib.Order.Basic

/-! # Backtracking regular expressions

A pattern is run from a cursor and returns every way to match, in the order a
backtracking matcher tries them; the first one is the match. What a pattern can
consume, and what its groups can capture, is bounded by its shape alone. -/
namespace RetailPrintGuard.Library.Regex

inductive Pattern where
  | char (p : Char → Bool)
  | empty
  | seq (r s : Pattern)
  | alt (r s : Pattern)
  /-- between `lo` and `hi` times, as often as possible when greedy -/
  | rep (greedy : Bool) (lo : Nat) (hi : Option Nat) (r : Pattern)
  | group (name : String) (r : Pattern)
  /-- a condition on the last character consumed and the text ahead -/
  | assert (p : Option Char → List Char → Bool)
  /-- the text ahead starts with a match -/
  | look (r : Pattern)

/-- A place in the text: what lies before it, last character first, what lies
ahead, and the groups captured, latest first. -/
structure Cursor where
  before : List Char
  after : List Char
  groups : List (String × List Char) := []
deriving DecidableEq

/-- The text between two cursors. -/
def between (c c' : Cursor) : List Char := c.after.take (c.after.length - c'.after.length)

/-- Repeat a step: at least `lo` times, at most `fuel` times. -/
def iterate (step : Cursor → List Cursor) (greedy : Bool) : Nat → Nat → Cursor → List Cursor
  | 0, lo, c => if lo = 0 then [c] else []
  | fuel + 1, lo, c =>
    let more := (step c).flatMap (iterate step greedy fuel (lo - 1))
    if lo = 0 then if greedy then more ++ [c] else c :: more else more

/-- Every way to match from the cursor, in the order they are tried. -/
def run : Pattern → Cursor → List Cursor
  | .char p, c =>
    match c.after with
    | [] => []
    | x :: rest => if p x then [{ c with before := x :: c.before, after := rest }] else []
  | .empty, c => [c]
  | .seq r s, c => (run r c).flatMap (run s)
  | .alt r s, c => run r c ++ run s c
  | .rep greedy lo hi r, c => iterate (run r) greedy (hi.getD c.after.length) lo c
  | .group name r, c =>
    (run r c).map fun c' => { c' with groups := (name, between c c') :: c'.groups }
  | .assert p, c => if p c.before.head? c.after then [c] else []
  | .look r, c => if (run r c).isEmpty then [] else [c]

/-! ## Matches -/

/-- A match with the text around it. -/
structure Match where
  lead : List Char
  text : List Char
  rest : List Char
  groups : List (String × List Char)
deriving DecidableEq

/-- `match.group(name)`: the last capture of the group. -/
def Match.group (m : Match) (name : String) : Option (List Char) := m.groups.lookup name

def toMatch (c c' : Cursor) : Match := ⟨c.before.reverse, between c c', c'.after, c'.groups⟩

/-- `pattern.match`, from a place in the text. -/
def matchAt (r : Pattern) (before after : List Char) : Option Match :=
  let start : Cursor := { before, after }
  (run r start).head?.map (toMatch start)

/-- `pattern.match(text)` -/
def matchStart (r : Pattern) (text : List Char) : Option Match := matchAt r [] text

/-- `pattern.fullmatch(text)` -/
def fullmatch (r : Pattern) (text : List Char) : Option Match :=
  let start : Cursor := { before := [], after := text }
  ((run r start).find? fun c => c.after.isEmpty).map (toMatch start)

/-- The first place from here on where the pattern matches. -/
def searchFrom (r : Pattern) : List Char → List Char → Option Match
  | before, [] => matchAt r before []
  | before, x :: rest =>
    match matchAt r before (x :: rest) with
    | some m => some m
    | none => searchFrom r (x :: before) rest

/-- `pattern.search(text)` -/
def search (r : Pattern) (text : List Char) : Option Match := searchFrom r [] text

/-- `pattern.finditer(text)`, for a pattern that never matches the empty text. -/
def findFrom (r : Pattern) : Nat → List Char → List Char → List Match
  | 0, _, _ => []
  | fuel + 1, before, after =>
    match searchFrom r before after with
    | none => []
    | some m => m :: findFrom r fuel (m.text.reverse ++ m.lead.reverse) m.rest

def finditer (r : Pattern) (text : List Char) : List Match := findFrom r (text.length + 1) [] text

/-! ## Patterns -/

def literal (p : Char → Char → Bool) (text : String) : Pattern :=
  text.toList.foldr (fun c r => .seq (.char (p c)) r) .empty

def opt (r : Pattern) : Pattern := .rep true 0 (some 1) r

def many (r : Pattern) : Pattern := .rep true 0 none r

def many1 (r : Pattern) : Pattern := .rep true 1 none r

def seqs (rs : List Pattern) : Pattern := rs.foldr .seq .empty

def alts : List Pattern → Pattern
  | [] => .empty
  | [r] => r
  | r :: rs => .alt r (alts rs)

/-! ## What a pattern consumes -/

/-- The texts a pattern can consume, whatever stands around them. -/
def Lang : Pattern → List Char → Prop
  | .char p, t => ∃ x, t = [x] ∧ p x = true
  | .empty, t => t = []
  | .seq r s, t => ∃ t₁ t₂, t = t₁ ++ t₂ ∧ Lang r t₁ ∧ Lang s t₂
  | .alt r s, t => Lang r t ∨ Lang s t
  | .rep _ lo hi r, t => ∃ ts : List (List Char), t = ts.flatten ∧ lo ≤ ts.length ∧
      (∀ h ∈ hi, ts.length ≤ h) ∧ ∀ u ∈ ts, Lang r u
  | .group _ r, t => Lang r t
  | .assert _, t => t = []
  | .look _, t => t = []

/-- The texts a group of the pattern can capture. -/
def Captures : Pattern → String → List Char → Prop
  | .seq r s, name, t => Captures r name t ∨ Captures s name t
  | .alt r s, name, t => Captures r name t ∨ Captures s name t
  | .rep _ _ _ r, name, t => Captures r name t
  | .group own r, name, t => (name = own ∧ Lang r t) ∨ Captures r name t
  | _, _, _ => False

/-- From one cursor to a later one: the text consumed, and every new capture a
part of it. -/
structure Advances (r : Pattern) (c : Cursor) (t : List Char) (c' : Cursor) : Prop where
  after : c.after = t ++ c'.after
  before : c'.before = t.reverse ++ c.before
  groups : ∀ g ∈ c'.groups, g ∈ c.groups ∨ (Captures r g.1 g.2 ∧ g.2 <:+: t)

variable {r : Pattern} {c c' : Cursor} {t : List Char}

theorem between_eq (h : c.after = t ++ c'.after) : between c c' = t := by
  rw [between, h, List.length_append, Nat.add_sub_cancel, List.take_left]

theorem advances_refl (r : Pattern) (c : Cursor) : Advances r c [] c :=
  ⟨rfl, rfl, fun _ h => Or.inl h⟩

/-- Two advances after one another, as parts of a larger pattern. -/
theorem Advances.trans {r s whole : Pattern} {a b d : Cursor} {t u : List Char}
    (h : Advances r a t b) (k : Advances s b u d)
    (hr : ∀ name v, Captures r name v → Captures whole name v)
    (hs : ∀ name v, Captures s name v → Captures whole name v) :
    Advances whole a (t ++ u) d where
  after := by rw [h.after, k.after, List.append_assoc]
  before := by rw [k.before, h.before, List.reverse_append, List.append_assoc]
  groups g hg := by
    obtain hg | ⟨hc, hin⟩ := k.groups g hg
    · obtain hg | ⟨hc, hin⟩ := h.groups g hg
      · exact Or.inl hg
      · exact Or.inr ⟨hr _ _ hc, hin.trans (List.infix_append_left ..)⟩
    · exact Or.inr ⟨hs _ _ hc, hin.trans (List.infix_append_right ..)⟩

/-- What repeating a step consumes: one text for each time. -/
theorem iterate_sound {step : Cursor → List Cursor} {greedy : Bool}
    (hstep : ∀ a, ∀ b ∈ step a, ∃ t, Advances r a t b ∧ Lang r t) {fuel lo : Nat} {c c' : Cursor}
    (h : c' ∈ iterate step greedy fuel lo c) :
    ∃ ts : List (List Char), Advances r c ts.flatten c' ∧ lo ≤ ts.length ∧ ts.length ≤ fuel ∧
      ∀ u ∈ ts, Lang r u := by
  induction fuel generalizing lo c with
  | zero =>
    rw [iterate] at h
    split at h
    · next hlo =>
      rw [List.mem_singleton.mp h]
      exact ⟨[], advances_refl r c, by simp [hlo], by simp, by simp⟩
    · cases h
  | succ fuel ih =>
    have hmore : c' ∈ (step c).flatMap (iterate step greedy fuel (lo - 1)) →
        ∃ ts : List (List Char), Advances r c ts.flatten c' ∧ lo ≤ ts.length ∧
          ts.length ≤ fuel + 1 ∧ ∀ u ∈ ts, Lang r u := by
      intro hm
      obtain ⟨b, hb, hrest⟩ := List.mem_flatMap.mp hm
      obtain ⟨t, hadv, hlang⟩ := hstep c b hb
      obtain ⟨ts, hadv', hlo, hhi, hall⟩ := ih hrest
      refine ⟨t :: ts, hadv.trans hadv' (fun _ _ h => h) (fun _ _ h => h), ?_, ?_, ?_⟩
      · rw [List.length_cons]
        omega
      · rw [List.length_cons]
        omega
      · exact List.forall_mem_cons.mpr ⟨hlang, hall⟩
    have hstop : lo = 0 → c' = c → ∃ ts : List (List Char), Advances r c ts.flatten c' ∧
        lo ≤ ts.length ∧ ts.length ≤ fuel + 1 ∧ ∀ u ∈ ts, Lang r u := by
      rintro rfl rfl
      exact ⟨[], advances_refl r _, le_rfl, by simp, by simp⟩
    rw [iterate] at h
    split at h
    · next hlo =>
      split at h
      · obtain h | h := List.mem_append.mp h
        · exact hmore h
        · exact hstop hlo (List.mem_singleton.mp h)
      · obtain h | h := List.mem_cons.mp h
        · exact hstop hlo h
        · exact hmore h
    · exact hmore h

/-- **Every way to match consumes a text of the pattern**, and captures texts of
its groups. -/
theorem run_sound (r : Pattern) {c c' : Cursor} (h : c' ∈ run r c) :
    ∃ t, Advances r c t c' ∧ Lang r t := by
  induction r generalizing c c' with
  | char p =>
    rw [run] at h
    split at h
    · cases h
    · next x rest hafter =>
      split at h
      · next hp =>
        rw [List.mem_singleton.mp h]
        exact ⟨[x], ⟨hafter, rfl, fun _ h => Or.inl h⟩, x, rfl, hp⟩
      · cases h
  | empty =>
    rw [run, List.mem_singleton] at h
    rw [h]
    exact ⟨[], advances_refl _ c, rfl⟩
  | seq r s ihr ihs =>
    obtain ⟨b, hb, hrest⟩ := List.mem_flatMap.mp h
    obtain ⟨t, hadv, hlang⟩ := ihr hb
    obtain ⟨u, hadv', hlang'⟩ := ihs hrest
    exact ⟨t ++ u, hadv.trans hadv' (fun _ _ => Or.inl) (fun _ _ => Or.inr), t, u, rfl, hlang, hlang'⟩
  | alt r s ihr ihs =>
    have hl : ∀ {q : Pattern}, (∀ name v, Captures q name v → Captures (.alt r s) name v) →
        ∀ {t}, Advances q c t c' → Advances (.alt r s) c t c' := fun hq _ hadv =>
      ⟨hadv.after, hadv.before, fun g hg => (hadv.groups g hg).imp id fun hc => ⟨hq _ _ hc.1, hc.2⟩⟩
    obtain h | h := List.mem_append.mp h
    · obtain ⟨t, hadv, hlang⟩ := ihr h
      exact ⟨t, hl (fun _ _ => Or.inl) hadv, Or.inl hlang⟩
    · obtain ⟨t, hadv, hlang⟩ := ihs h
      exact ⟨t, hl (fun _ _ => Or.inr) hadv, Or.inr hlang⟩
  | rep greedy lo hi r ih =>
    obtain ⟨ts, hadv, hlo, hhi, hall⟩ := iterate_sound (fun a b hb => ih hb) h
    refine ⟨ts.flatten, ⟨hadv.after, hadv.before, hadv.groups⟩, ts, rfl, hlo, ?_, hall⟩
    intro bound hb
    cases hb
    exact hhi
  | group name r ih =>
    obtain ⟨b, hb, rfl⟩ := List.mem_map.mp h
    obtain ⟨t, hadv, hlang⟩ := ih hb
    refine ⟨t, ⟨hadv.after, hadv.before, fun g hg => ?_⟩, hlang⟩
    obtain rfl | hg := List.mem_cons.mp hg
    · rw [between_eq hadv.after]
      exact Or.inr ⟨Or.inl ⟨rfl, hlang⟩, List.infix_rfl⟩
    · exact (hadv.groups g hg).imp id fun hc => ⟨Or.inr hc.1, hc.2⟩
  | assert p =>
    rw [run] at h
    split at h
    · rw [List.mem_singleton.mp h]
      exact ⟨[], advances_refl _ c, rfl⟩
    · cases h
  | look r ih =>
    rw [run] at h
    split at h
    · cases h
    · rw [List.mem_singleton.mp h]
      exact ⟨[], advances_refl _ c, rfl⟩

/-! ## Bounds a pattern sets by its shape -/

/-- The longest text the pattern consumes, when there is one. -/
def maxLength : Pattern → Option Nat
  | .char _ => some 1
  | .empty => some 0
  | .seq r s => (maxLength r).bind fun m => (maxLength s).map (m + ·)
  | .alt r s => (maxLength r).bind fun m => (maxLength s).map (max m)
  | .rep _ _ hi r => hi.bind fun h => (maxLength r).map (h * ·)
  | .group _ r => maxLength r
  | .assert _ => some 0
  | .look _ => some 0

/-- The characters the pattern consumes. -/
def consumes : Pattern → Char → Bool
  | .char p, x => p x
  | .seq r s, x | .alt r s, x => consumes r x || consumes s x
  | .rep _ _ _ r, x | .group _ r, x => consumes r x
  | _, _ => false

theorem length_flatten_le {ts : List (List Char)} {m : Nat} (h : ∀ u ∈ ts, u.length ≤ m) :
    ts.flatten.length ≤ ts.length * m := by
  induction ts with
  | nil => exact Nat.zero_le _
  | cons t ts ih =>
    rw [List.flatten_cons, List.length_append, List.length_cons, Nat.succ_mul, Nat.add_comm]
    exact Nat.add_le_add (ih fun u hu => h u (List.mem_cons_of_mem _ hu)) (h t List.mem_cons_self)

theorem length_le_of_lang {r : Pattern} {t : List Char} (h : Lang r t) {bound : Nat}
    (hb : maxLength r = some bound) : t.length ≤ bound := by
  induction r generalizing t bound with
  | char p =>
    obtain ⟨x, rfl, -⟩ := h
    exact (Option.some.inj hb).le
  | empty =>
    subst h
    exact Nat.zero_le _
  | seq r s ihr ihs =>
    obtain ⟨t₁, t₂, rfl, h₁, h₂⟩ := h
    obtain ⟨m, hm, n, hn, rfl⟩ : ∃ m, maxLength r = some m ∧ ∃ n, maxLength s = some n ∧
        m + n = bound := by simpa [maxLength, Option.bind_eq_some_iff] using hb
    rw [List.length_append]
    exact Nat.add_le_add (ihr h₁ hm) (ihs h₂ hn)
  | alt r s ihr ihs =>
    obtain ⟨m, hm, n, hn, rfl⟩ : ∃ m, maxLength r = some m ∧ ∃ n, maxLength s = some n ∧
        max m n = bound := by simpa [maxLength, Option.bind_eq_some_iff] using hb
    obtain h | h := h
    · exact (ihr h hm).trans (le_max_left _ _)
    · exact (ihs h hn).trans (le_max_right _ _)
  | rep greedy lo hi r ih =>
    obtain ⟨ts, rfl, -, hhi, hall⟩ := h
    obtain ⟨k, rfl, m, hm, rfl⟩ : ∃ k, hi = some k ∧ ∃ m, maxLength r = some m ∧ k * m = bound := by
      simpa [maxLength, Option.bind_eq_some_iff] using hb
    exact (length_flatten_le fun u hu => ih (hall u hu) hm).trans (Nat.mul_le_mul_right m (hhi k rfl))
  | group name r ih => exact ih h hb
  | assert p =>
    subst h
    exact Nat.zero_le _
  | look r =>
    subst h
    exact Nat.zero_le _

theorem consumes_of_lang {r : Pattern} {t : List Char} (h : Lang r t) {x : Char} (hx : x ∈ t) :
    consumes r x = true := by
  induction r generalizing t with
  | char p =>
    obtain ⟨y, rfl, hp⟩ := h
    rw [List.mem_singleton.mp hx]
    exact hp
  | seq r s ihr ihs =>
    obtain ⟨t₁, t₂, rfl, h₁, h₂⟩ := h
    rw [consumes, Bool.or_eq_true]
    exact (List.mem_append.mp hx).imp (ihr h₁) (ihs h₂)
  | alt r s ihr ihs =>
    rw [consumes, Bool.or_eq_true]
    exact h.imp (fun h => ihr h hx) fun h => ihs h hx
  | rep greedy lo hi r ih =>
    obtain ⟨ts, rfl, -, -, hall⟩ := h
    obtain ⟨u, hu, hxu⟩ := List.mem_flatten.mp hx
    exact ih (hall u hu) hxu
  | group name r ih => exact ih h hx
  | empty | assert p | look r =>
    subst h
    cases hx

/-- A repeated character class consumes as many of its characters. -/
theorem chars_of_lang {greedy : Bool} {lo : Nat} {hi : Option Nat} {p : Char → Bool}
    {t : List Char} (h : Lang (.rep greedy lo hi (.char p)) t) :
    lo ≤ t.length ∧ ∀ x ∈ t, p x = true := by
  obtain ⟨ts, rfl, hlo, -, hall⟩ := h
  have hlength : ts.flatten.length = ts.length := by
    clear hlo
    induction ts with
    | nil => rfl
    | cons u ts ih =>
      obtain ⟨x, rfl, -⟩ := hall u List.mem_cons_self
      simp [ih fun v hv => hall v (List.mem_cons_of_mem _ hv)]
  refine ⟨hlength ▸ hlo, fun x hx => ?_⟩
  obtain ⟨u, hu, hxu⟩ := List.mem_flatten.mp hx
  obtain ⟨y, rfl, hp⟩ := hall u hu
  rw [List.mem_singleton.mp hxu]
  exact hp

/-! ## What a match is -/

/-- A match consumes a text of the pattern; its captures are parts of it. -/
structure Match.Sound (r : Pattern) (m : Match) : Prop where
  lang : Lang r m.text
  groups : ∀ g ∈ m.groups, Captures r g.1 g.2 ∧ g.2 <:+: m.text

theorem toMatch_sound {before after : List Char} {c' : Cursor}
    (h : c' ∈ run r { before, after }) :
    (toMatch { before, after } c').Sound r ∧
      after = (toMatch { before, after } c').text ++ (toMatch { before, after } c').rest ∧
      (toMatch { before, after } c').lead = before.reverse := by
  obtain ⟨t, hadv, hlang⟩ := run_sound r h
  have ht : between { before, after } c' = t := between_eq hadv.after
  refine ⟨⟨?_, fun g hg => ?_⟩, ?_, rfl⟩
  · rw [show (toMatch { before, after } c').text = t from ht]
    exact hlang
  · rw [show (toMatch { before, after } c').text = t from ht]
    exact (hadv.groups g hg).elim (fun h => absurd h List.not_mem_nil) id
  · rw [show (toMatch { before, after } c').text = t from ht]
    exact hadv.after

theorem matchAt_sound {before after : List Char} {m : Match} (h : matchAt r before after = some m) :
    m.Sound r ∧ after = m.text ++ m.rest ∧ m.lead = before.reverse := by
  obtain ⟨c', hc, rfl⟩ := Option.map_eq_some_iff.mp h
  exact toMatch_sound (List.mem_of_mem_head? hc)

/-- A full match is the whole text. -/
theorem fullmatch_sound {text : List Char} {m : Match} (h : fullmatch r text = some m) :
    m.Sound r ∧ m.text = text := by
  obtain ⟨c', hc, rfl⟩ := Option.map_eq_some_iff.mp h
  obtain ⟨hs, htext, -⟩ := toMatch_sound (List.mem_of_find?_eq_some hc)
  have hend : c'.after = [] := by simpa using List.find?_some hc
  refine ⟨hs, ?_⟩
  rw [show (toMatch { before := [], after := text } c').rest = [] from hend, List.append_nil] at htext
  exact htext.symm

theorem searchFrom_sound {before after : List Char} {m : Match}
    (h : searchFrom r before after = some m) :
    m.Sound r ∧ before.reverse ++ after = m.lead ++ m.text ++ m.rest := by
  have hat : ∀ {before after : List Char}, matchAt r before after = some m →
      m.Sound r ∧ before.reverse ++ after = m.lead ++ m.text ++ m.rest := by
    intro before after h
    obtain ⟨hs, htext, hlead⟩ := matchAt_sound h
    exact ⟨hs, by rw [hlead, htext, List.append_assoc]⟩
  induction after generalizing before with
  | nil => exact hat h
  | cons x rest ih =>
    rw [searchFrom] at h
    cases hm : matchAt r before (x :: rest) with
    | some found =>
      rw [hm] at h
      cases h
      exact hat hm
    | none =>
      rw [hm] at h
      obtain ⟨hs, htext⟩ := ih h
      rw [List.reverse_cons, List.append_assoc] at htext
      exact ⟨hs, htext⟩

/-- A search finds a part of the text. -/
theorem search_sound {text : List Char} {m : Match} (h : search r text = some m) :
    m.Sound r ∧ text = m.lead ++ m.text ++ m.rest := searchFrom_sound h

theorem finditer_sound {text : List Char} {m : Match} (h : m ∈ finditer r text) :
    m.Sound r ∧ text = m.lead ++ m.text ++ m.rest := by
  have hall : ∀ (fuel : Nat) (before after : List Char), m ∈ findFrom r fuel before after →
      m.Sound r ∧ before.reverse ++ after = m.lead ++ m.text ++ m.rest := by
    intro fuel
    induction fuel with
    | zero => exact fun _ _ h => absurd h List.not_mem_nil
    | succ fuel ih =>
      intro before after h
      rw [findFrom] at h
      cases hs : searchFrom r before after with
      | none =>
        rw [hs] at h
        cases h
      | some first =>
        rw [hs] at h
        obtain ⟨hsound, htext⟩ := searchFrom_sound hs
        obtain rfl | h := List.mem_cons.mp h
        · exact ⟨hsound, htext⟩
        · obtain ⟨hm, hrest⟩ := ih _ _ h
          rw [List.reverse_append, List.reverse_reverse, List.reverse_reverse] at hrest
          exact ⟨hm, htext.trans hrest⟩
  exact hall _ [] text h

theorem mem_of_lookup {groups : List (String × List Char)} {name : String} {t : List Char}
    (h : groups.lookup name = some t) : (name, t) ∈ groups := by
  induction groups with
  | nil => cases h
  | cons g groups ih =>
    rw [List.lookup_cons] at h
    split at h
    · next heq =>
      rw [Option.some.injEq] at h
      rw [beq_iff_eq.mp heq, ← h]
      exact List.mem_cons_self
    · exact List.mem_cons_of_mem _ (ih h)

theorem Match.Sound.group {m : Match} (h : m.Sound r) {name : String} {t : List Char}
    (hg : m.group name = some t) : Captures r name t ∧ t <:+: m.text :=
  h.groups (name, t) (mem_of_lookup hg)

end RetailPrintGuard.Library.Regex

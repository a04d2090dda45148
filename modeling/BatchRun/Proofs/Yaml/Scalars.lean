import BatchRun.Proofs.Yaml.Lexer
import BatchRun.Proofs.Yaml.Literal
import BatchRun.Proofs.Yaml.PlainScalar
import BatchRun.Proofs.Yaml.Quoted

/-!
# Nodes without parts

A scalar is read where it stands; what happens to the blocks around it depends on the column of
what follows.

* `Opens`: the texts that start with a token;
* `Place.leads_of_content`: a token and the way to the next one;
* `Frame.EndsAt`, `Frame.behind`: what may follow a node, and the place behind it;
* **`Place.leads_plain`, `leads_quoted`, `leads_literal`, `leads_brackets`**: nodes without parts.
-/

namespace BatchRun

namespace Yaml

open Cursor

/-! ## Starts of tokens -/

/-- A text that starts with a token which is neither a directive nor a marker of a document. -/
structure Opens (cs : List Char) : Prop where
  start : ∃ c rest, cs = c :: rest ∧ StartsToken c ∧ c ≠ '%'
  marker : ∀ p : Cursor, p.rest = cs → p.atAnyMarker = false

namespace Opens

variable {cs : List Char}

theorem follows (h : Opens cs) {column : Nat} {outer : Int} (hle : (column : Int) ≤ outer) :
    Follows outer column cs := by
  obtain ⟨c, rest, rfl, hc, -⟩ := h.start
  exact .token hc hle rest

theorem of_head {c : Char} (hc : StartsToken c) (hpercent : c ≠ '%') (hhyphen : c ≠ '-')
    (hpoint : c ≠ '.') (rest : List Char) : Opens (c :: rest) := by
  refine ⟨⟨c, rest, rfl, hc, hpercent⟩, fun p hp => ?_⟩
  simp [atAnyMarker, atMarker, head_of_rest hp, hhyphen, hpoint]

theorem of_next {c d : Char} (hc : StartsToken c) (hpercent : c ≠ '%') (hne : d ≠ c)
    (rest : List Char) : Opens (c :: d :: rest) := by
  refine ⟨⟨c, d :: rest, rfl, hc, hpercent⟩, fun p hp => ?_⟩
  have hpeek : p.peek 1 = d := peek_one_of_rest hp
  have hmark (mark : Char) : p.atMarker mark = false := by
    rw [atMarker, head_of_rest hp, hpeek]
    by_cases h : c = mark
    · subst h
      simp [hne]
    · simp [h]
  rw [atAnyMarker, hmark, hmark]
  rfl

end Opens

theorem PlainText.opens {cs rest : List Char} (hcs : PlainText cs) (hrest : EndsScalar rest) :
    Opens (cs ++ rest) := by
  refine ⟨?_, fun p hp => hcs.atAnyMarker hrest hp⟩
  obtain ⟨c, tail, rfl, hs, hhash⟩ := hcs.head
  have hmem : c ∈ c :: tail := List.mem_cons_self
  refine ⟨c, tail ++ rest, rfl, ⟨?_, hhash⟩, ?_⟩
  · exact isWordEnd_eq_false (hcs.printable c hmem) hs (hcs.ne_newline hmem)
  · rintro rfl
    exact absurd (hcs.opener '%' rfl) (by decide)

/-! ## Saved spots -/

namespace Lexer

variable {f : Frame} {p q : Cursor} {allowed : Bool} {s : KeySpot} {x : Rest}

/-- The spot of a key at a position. -/
def spotAt (f : Frame) (p : Cursor) : KeySpot :=
  ⟨true, f.least == (p.column : Int) && f.levels.head?.any Level.isBlock, f.out.length, p.index,
    p.line, p.column⟩

/-- The spot from a position on. -/
def saved (f : Frame) (p : Cursor) (allowed : Bool) (s : KeySpot) : KeySpot :=
  if allowed then spotAt f p else s

theorem inBlock_saveKey : (inBlock f p allowed s x).saveKey =
    inBlock f p allowed (saved f p allowed s) x := by
  cases allowed <;> rfl

theorem saved_loose (hs : s.possible = false) (hdeep : f.indent < p.column)
    (hline : p.line < q.line) : (saved f p allowed s).possible = false ∨
      (saved f p allowed s).required = false ∧ (saved f p allowed s).line < q.line := by
  cases allowed with
  | false => exact .inl hs
  | true =>
    refine .inr ⟨?_, hline⟩
    obtain ⟨indent, outer, hanging, out⟩ := f
    cases hanging with
    | true => simp [saved, spotAt, Frame.levels]
    | false =>
      have hne : indent ≠ (p.column : Int) := Int.ne_of_lt hdeep
      simp [saved, spotAt, Frame.least, hne]

end Lexer

/-! ## A token and the way to the next one -/

theorem Place.leads_of_content {a b : Place} (hopens : Opens a.rest)
    (hleast : a.frame.least ≤ a.column) (hshort : b.rest.length < a.rest.length)
    (hcontent : ∀ p s x, p.rest = a.rest → p.column = a.column → s.possible = false →
      ∃ g p' a' s' x' q,
        (Lexer.inBlock a.frame p a.allowed s x).content = .ok (Lexer.inBlock g p' a' s' x') ∧
        (s'.possible = false ∨ s'.required = false ∧ s'.line < q.line) ∧
        (∀ s, (Lexer.inBlock g p' a' s x').skipToToken (p'.rest.length + 2) =
          .ok (Lexer.inBlock g q b.allowed s x')) ∧
        q.rest = b.rest ∧ q.column = b.column ∧ g.close b.column = b.frame) :
    a.Leads b := by
  rintro m ⟨p, s, x, rfl, hs, hp, hcolumn⟩
  obtain ⟨g, p', a', s', x', q, htoken, hs', hskip, hq, hqcolumn, hclose⟩ :=
    hcontent p s x hp hcolumn hs
  obtain ⟨c, rest, hrest, hc, hpercent⟩ := hopens.start
  obtain ⟨t, hsettle, ht⟩ := Lexer.inBlock_settle hs' hskip
  rw [hqcolumn, hclose] at hsettle
  rw [← Lexer.inBlock_token (hp.trans hrest) hc hpercent (hopens.marker p hp)
    (by rwa [hcolumn])] at htoken
  refine ⟨_, .step htoken rfl hsettle ?_ (.refl _), q, t, x', rfl, ht, hq, hqcolumn⟩
  rw [Lexer.inBlock_pos, Lexer.inBlock_pos, hq, hp]
  exact hshort

/-- What may follow a node in a frame: the end of the text, or a token that is no deeper than the
block. -/
structure Frame.EndsAt (f : Frame) (column : Nat) (body : List Char) : Prop where
  follows : Follows f.indent column body
  shallow : (column : Int) ≤ f.indent ∨ f.outer = [] ∧ f.hanging = false

theorem Frame.EndsAt.le_of_hanging {f : Frame} {column : Nat} {body : List Char}
    (h : f.EndsAt column body) (hang : f.hanging = true) : (column : Int) ≤ f.indent := by
  refine h.shallow.resolve_right fun hbare => ?_
  rw [hbare.2] at hang
  cases hang

/-- The place behind a node that is read as some tokens. -/
def Frame.behind (f : Frame) (ts : List Token) (column : Nat) (body : List Char) : Place :=
  ⟨closeFrom column f.outer f.indent (ts.reverse ++ f.out), body, column, true⟩

variable {f : Frame} {p : Cursor} {allowed : Bool} {s : KeySpot} {x : Lexer.Rest}
  {col column : Nat} {cs body rest : List Char}

theorem Frame.least_le (h : f.indent < col) : f.least ≤ col := by
  rw [Frame.least]
  split <;> omega

theorem Frame.indent_le (f : Frame) : f.indent ≤ f.least := by
  rw [Frame.least]
  split <;> omega

theorem Place.leads_scalar {t : Token} {text : List Char}
    (hopens : Opens (text ++ (spaces column ++ body))) (htext : text ≠ [])
    (h : f.EndsAt column body) (hdeep : f.indent < col)
    (hcontent : ∀ p s x, p.rest = text ++ (spaces column ++ body) → p.column = col →
      ∃ g q x', (g = f ∨ g = f.steady) ∧
        (Lexer.inBlock f p allowed s x).content =
          .ok (Lexer.inBlock (g.emit t) q true (Lexer.saved f p allowed s) x') ∧
        q.rest = body ∧ q.column = column ∧ p.line < q.line) :
    Place.Leads ⟨f, text ++ (spaces column ++ body), col, allowed⟩ (f.behind [t] column body) := by
  refine Place.leads_of_content hopens (f.least_le hdeep) ?_ fun p s x hp hcol hs => ?_
  · have := List.length_pos_iff.2 htext
    simp only [Frame.behind, List.length_append]
    omega
  obtain ⟨g, q, x', hg, htoken, hq, hqcolumn, hline⟩ := hcontent p s x hp hcol
  refine ⟨g.emit t, q, true, _, x', q, htoken, Lexer.saved_loose hs (by rwa [hcol]) hline,
    fun s => Lexer.inBlock_skipToToken_here h.follows hq _, hq, hqcolumn, ?_⟩
  rw [Frame.close_eq]
  · obtain rfl | rfl := hg <;> rfl
  · obtain rfl | rfl := hg
    · exact h.le_of_hanging
    · exact fun hang => by cases hang

/-! ## Plain scalars -/

theorem Lexer.content_plain {p : Cursor} {allowed : Bool} {s : KeySpot} {x : Lexer.Rest}
    (hcs : PlainText cs) (hp : p.rest = cs ++ rest) :
    (Lexer.inBlock f p allowed s x).content = (Lexer.inBlock f p allowed s x).plainScalar := by
  obtain ⟨c, tail, rfl, -, -⟩ := hcs.head
  have hopener := hcs.opener c rfl
  simp only [Traits.openers, List.contains_cons, Bool.or_eq_false_iff] at hopener
  have hmark (hc : c = '-' ∨ c = '?' ∨ c = ':') : isWordEnd (p.peek 1) = false := by
    rw [peek_one_of_rest (show p.rest = c :: (tail ++ rest) from hp)]
    exact isWordEnd_head_eq_false (hcs.mark c tail rfl hc) rest
  rw [Lexer.content]
  simp only [Lexer.inBlock_pos, Lexer.inBlock_inFlow,
    head_of_rest (show p.rest = c :: (tail ++ rest) from hp), hopener, Bool.false_and,
    Bool.or_false, Bool.false_eq_true, if_false]
  by_cases hc : c = '-' ∨ c = '?' ∨ c = ':'
  · simp [hmark hc]
  · simp only [not_or] at hc
    simp [hc]

/-- **A plain text at the end of its line.** -/
theorem Place.leads_plain {allowed : Bool} (hcs : PlainText cs) (h : f.EndsAt column body)
    (hdeep : f.indent < col) :
    Place.Leads ⟨f, (cs ++ ['\n']) ++ (spaces column ++ body), col, allowed⟩
      (f.behind [.scalar true (String.ofList cs)] column body) := by
  have hopens : Opens ((cs ++ ['\n']) ++ (spaces column ++ body)) := by
    rw [List.append_assoc]
    exact hcs.opens (.newline _)
  refine Place.leads_scalar hopens (by simp) h hdeep fun p s x hp hcol => ?_
  rw [List.append_assoc] at hp
  refine ⟨f.steady, (p.skipMany cs.length).nextLine column, x, .inr rfl, ?_,
    nextLine_rest (skipMany_rest_append hp), rfl, ?_⟩
  · rw [Lexer.content_plain hcs hp, Lexer.plainScalar, Lexer.inBlock_saveKey,
      Lexer.inBlock_allowKey, Lexer.inBlock_closeColumns]
    have hread := readPlain_newline hcs h.follows hp (by rw [hcol]; omega)
    simp only [Lexer.inBlock_inFlow, Lexer.inBlock_pos, Lexer.inBlock_indent]
    change (do let r ← readPlain false (f.indent + 1) p; _ : Except Problem Lexer) = _
    rw [hread]
    rfl
  · simp [nextLine]

/-! ## Quoted scalars -/

section Quoted

variable {single : Bool} {enc : Char → List Char}

/-- A text between quotes. -/
def quoted (single : Bool) (enc : Char → List Char) (cs : List Char) : List Char :=
  quoteMark single :: (cs.flatMap enc ++ [quoteMark single])

theorem opens_quoted : Opens (quoted single enc cs ++ rest) := by
  cases single <;> exact .of_head ⟨by decide, by decide⟩ (by decide) (by decide) (by decide) _

variable (hspace : enc ' ' = [' ']) (hshow : ∀ c ∈ cs, c ≠ ' ' → Shows single (enc c) c)

include hspace hshow

theorem Lexer.content_quoted (hp : p.rest = quoted single enc cs ++ rest)
    (hrest : EndsScalar rest) (hindent : f.least ≤ p.column) {q : Cursor} {a : Bool}
    (hskip : ∀ s, (Lexer.inBlock f (p.skipMany (quoted single enc cs).length) false s x).skipToToken
      (rest.length + 2) = .ok (Lexer.inBlock f q a s x)) :
    (Lexer.inBlock f p allowed s x).content =
      .ok (Lexer.inBlock (f.emit (.scalar false (String.ofList cs))) q a
        (Lexer.saved f p allowed s) ⟨x.mappingStarted, q.index⟩) := by
  have hlength : (quoted single enc cs).length = (cs.flatMap enc).length + 2 := by
    simp [quoted]
  have hrestq := skipMany_rest_append hp
  rw [quoted, List.cons_append, List.append_assoc, List.singleton_append] at hp
  have hcontent : (Lexer.inBlock f p allowed s x).content =
      (Lexer.inBlock f p allowed s x).quotedScalar single := by
    rw [Lexer.content]
    simp only [Lexer.inBlock_pos, Lexer.inBlock_inFlow, head_of_rest hp]
    cases single <;> rfl
  have hread := readQuoted_run hspace hshow hp hrest hindent
  rw [← hlength] at hread
  rw [hcontent, Lexer.quotedScalar, Lexer.inBlock_saveKey, Lexer.inBlock_allowKey]
  simp only [Lexer.inBlock_inFlow, Lexer.inBlock_pos, Lexer.inBlock_indent, hread, bind,
    Except.bind, Lexer.inBlock_moveTo, Lexer.inBlock_fuel, hrestq, hskip]
  rfl

/-- **A quoted text at the end of its line.** -/
theorem Place.leads_quoted (h : f.EndsAt column body) (hdeep : f.indent < col) :
    Place.Leads ⟨f, (quoted single enc cs ++ ['\n']) ++ (spaces column ++ body), col, allowed⟩
      (f.behind [.scalar false (String.ofList cs)] column body) := by
  have hopens : Opens ((quoted single enc cs ++ ['\n']) ++ (spaces column ++ body)) := by
    rw [List.append_assoc]
    exact opens_quoted
  refine Place.leads_scalar hopens (by simp) h hdeep fun p s x hp hcol => ?_
  rw [List.append_assoc] at hp
  have hq := skipMany_rest_append hp
  refine ⟨f, (p.skipMany (quoted single enc cs).length).nextLine column, _, .inl rfl,
    Lexer.content_quoted hspace hshow hp (.newline _) ?_ fun s => ?_, nextLine_rest hq, rfl, ?_⟩
  · rw [hcol]
    exact f.least_le hdeep
  · exact Lexer.inBlock_skipToToken_newline h.follows hq (by simp [spaces]; omega)
  · simp [nextLine]

end Quoted

/-! ## Literal blocks -/

/-- A text in a literal block, which ends in a line feed. -/
def literalText (indent : Nat) (cs : List Char) : List Char := literal indent cs ++ closing cs

/-- **A literal block.** -/
theorem Place.leads_literal (hcs : LiteralText cs) (hfeeds : OnlyFeeds cs)
    (h : f.EndsAt column body) (hdeep : f.indent < col) :
    Place.Leads ⟨f, literalText (blockIndent f.indent) cs ++ (spaces column ++ body), col, allowed⟩
      (f.behind [.scalar false (String.ofList cs)] column body) := by
  have heq : literalText (blockIndent f.indent) cs ++ (spaces column ++ body) =
      '|' :: (indentMark cs ++ (chomping cs ++ '\n' ::
        (literalBody (blockIndent f.indent) true cs ++
          (closing cs ++ (spaces column ++ body))))) := by
    simp [literalText, literal]
  have hopens : Opens (literalText (blockIndent f.indent) cs ++ (spaces column ++ body)) := by
    rw [heq]
    exact .of_head ⟨by decide, by decide⟩ (by decide) (by decide) (by decide) _
  refine Place.leads_scalar hopens (by simp [literalText, literal]) h hdeep fun p s x hp hcol => ?_
  rw [heq] at hp
  obtain ⟨q, hread, hq⟩ := readBlockScalar_run hcs hfeeds h.follows (skip_rest_of_rest hp)
  refine ⟨f.steady, q, x, .inr rfl, ?_, hq.rest, hq.column, hq.line⟩
  have hcontent : (Lexer.inBlock f p allowed s x).content =
      (Lexer.inBlock f p allowed s x).blockScalar true := by
    rw [Lexer.content]
    simp only [Lexer.inBlock_pos, Lexer.inBlock_inFlow, head_of_rest hp]
    rfl
  rw [hcontent, Lexer.blockScalar, Lexer.inBlock_saveKey, Lexer.inBlock_allowKey,
    Lexer.inBlock_closeColumns]
  simp only [Lexer.inBlock_pos, Lexer.inBlock_indent]
  change (do let r ← readBlockScalar true f.indent p.skip; _ : Except Problem Lexer) = _
  rw [hread]
  rfl

/-! ## Empty brackets -/

section Brackets

variable {mapping : Bool}

def openingMark (mapping : Bool) : Char := if mapping then '{' else '['

def closingMark (mapping : Bool) : Char := if mapping then '}' else ']'

def openingToken (mapping : Bool) : Token :=
  if mapping then .flowMappingStart else .flowSequenceStart

def closingToken (mapping : Bool) : Token := if mapping then .flowMappingEnd else .flowSequenceEnd

/-- The state between two brackets. -/
def Lexer.inBrackets (f : Frame) (p : Cursor) (s : KeySpot) (x : Lexer.Rest) : Lexer :=
  ⟨p, f.out, f.out.length, true, [KeySpot.none, s], f.least, f.levels, 1, x.mappingStarted, false,
    x.adjacent, false, false⟩

theorem Lexer.content_openingMark
    (hp : p.rest = openingMark mapping :: closingMark mapping :: rest) :
    (Lexer.inBlock f p allowed s x).content =
      .ok (Lexer.inBrackets (f.demand.emit (openingToken mapping)) p.skip
        (Lexer.saved f p allowed s) ⟨mapping || x.mappingStarted, x.adjacent⟩) := by
  have hline : p.skip.finishLine = .ok p.skip := by
    rw [Cursor.finishLine, Cursor.skipToLineEnd, Cursor.skipToLineEndFrom,
      head_of_rest (skip_rest_of_rest hp)]
    cases mapping <;> rfl
  have hcontent : (Lexer.inBlock f p allowed s x).content =
      (Lexer.inBlock f p allowed s x).flowStart (openingToken mapping) := by
    rw [Lexer.content]
    simp only [Lexer.inBlock_pos, head_of_rest hp]
    cases mapping <;> rfl
  rw [hcontent, Lexer.flowStart, Lexer.inBlock_saveKey, Lexer.inBlock_openColumn]
  refine (if_neg (show (0 : Nat) ≠ Lexer.flowLimit by decide)).trans ?_
  cases mapping <;>
  · change (do let q ← p.skip.finishLine; _ : Except Problem Lexer) = _
    rw [hline]
    rfl

theorem Lexer.inBrackets_settle (hp : p.rest = closingMark mapping :: rest) :
    (Lexer.inBrackets f p s x).settle = .ok (Lexer.inBrackets f p s x) := by
  have hstale : (Lexer.inBrackets f p s x).staleKeys = .ok (Lexer.inBrackets f p s x) := by
    rw [Lexer.staleKeys]
    obtain ⟨possible, required, number, index, line, column⟩ := s
    cases possible <;> rfl
  have hskip (fuel : Nat) :
      (Lexer.inBrackets f p s x).skipToToken fuel = .ok (Lexer.inBrackets f p s x) := by
    cases fuel with
    | zero => rfl
    | succ fuel =>
      rw [Lexer.skipToToken]
      simp only [show (Lexer.inBrackets f p s x).pos = p from rfl, head_of_rest hp]
      cases mapping <;> rfl
  rw [Lexer.settle, hstale]
  simp only [bind, Except.bind, hskip, hstale]
  rfl

theorem Lexer.inBrackets_token (hp : p.rest = closingMark mapping :: '\n' :: rest)
    (hleast : f.least ≤ p.column) : (Lexer.inBrackets f p s x).token =
      .ok (Lexer.inBlock (f.emit (closingToken mapping)) p.skip false s x) := by
  have hline : p.skip.finishLine = .ok p.skip :=
    (EndsScalar.newline rest).finishLine (skip_rest_of_rest hp)
  have hmarker (mark : Char) (hmark : mark ≠ closingMark mapping) : p.atMarker mark = false := by
    simp [Cursor.atMarker, head_of_rest hp, Ne.symm hmark]
  have htoken : (Lexer.inBrackets f p s x).token =
      (Lexer.inBrackets f p s x).flowEnd (closingToken mapping) := by
    rw [Lexer.token]
    simp only [show (Lexer.inBrackets f p s x).pos = p from rfl, head_of_rest hp,
      hmarker '-' (by cases mapping <;> decide), hmarker '.' (by cases mapping <;> decide),
      show (Lexer.inBrackets f p s x).indent = f.least from rfl, Int.not_lt.2 hleast]
    rw [Lexer.content]
    simp only [show (Lexer.inBrackets f p s x).pos = p from rfl, head_of_rest hp]
    cases mapping <;> simp [closingMark, closingToken, isEndMark]
  rw [htoken, Lexer.flowEnd]
  change (do let q ← p.skip.finishLine; _ : Except Problem Lexer) = _
  rw [hline]
  rfl

/-- **Empty brackets at the end of a line.** -/
theorem Place.leads_brackets (h : f.EndsAt column body) (hdeep : f.indent < col) :
    Place.Leads
      ⟨f, [openingMark mapping, closingMark mapping, '\n'] ++ (spaces column ++ body), col, allowed⟩
      (f.behind [openingToken mapping, closingToken mapping] column body) := by
  rintro m ⟨p, s, x, rfl, hs, hp, hcol⟩
  have hp : p.rest =
      openingMark mapping :: closingMark mapping :: '\n' :: (spaces column ++ body) := hp
  have hcol : p.column = col := hcol
  have hq := skip_rest_of_rest hp
  have hopens : Opens p.rest := by
    rw [hp]
    cases mapping <;> exact .of_head ⟨by decide, by decide⟩ (by decide) (by decide) (by decide) _
  obtain ⟨c, rest, hrest, hc, hpercent⟩ := hopens.start
  have hindent : f.indent + 1 ≤ p.skip.column := by
    rw [skip_column, hcol]
    omega
  have hdemand : f.demand.least ≤ p.skip.column := by
    rw [Frame.demand]
    split
    · exact f.least_le (by omega)
    · exact hindent
  set y : Lexer.Rest := ⟨mapping || x.mappingStarted, x.adjacent⟩ with hy
  set g := f.demand.emit (openingToken mapping) with hg
  set t := Lexer.saved f p allowed s with ht
  have hopening : (Lexer.inBlock f p allowed s x).token = .ok (Lexer.inBrackets g p.skip t y) :=
    (Lexer.inBlock_token hrest hc hpercent (hopens.marker p rfl)
      (by rw [hcol]; exact f.least_le hdeep)).trans (Lexer.content_openingMark hp)
  have hclosing : (Lexer.inBrackets g p.skip t y).token =
      .ok (Lexer.inBlock (g.emit (closingToken mapping)) p.skip.skip false t y) :=
    Lexer.inBrackets_token hq hdemand
  have hend := skip_rest_of_rest hq
  have hskip (s : KeySpot) :
      (Lexer.inBlock (g.emit (closingToken mapping)) p.skip.skip false s y).skipToToken
        (p.skip.skip.rest.length + 2) = .ok (Lexer.inBlock (g.emit (closingToken mapping))
          (p.skip.skip.nextLine column) true s y) :=
    Lexer.inBlock_skipToToken_newline h.follows hend (by rw [hend]; simp [spaces]; omega)
  obtain ⟨s', hsettle, hs'⟩ := Lexer.inBlock_settle
    (Lexer.saved_loose hs (by rwa [hcol]) (by simp [nextLine])) hskip
  have hclose : (g.emit (closingToken mapping)).close column =
      Frame.closeFrom column f.outer f.indent
        ([openingToken mapping, closingToken mapping].reverse ++ f.out) := by
    rw [Frame.close_eq]
    · rw [hg, Frame.demand]
      split <;> rfl
    · rw [hg, Frame.demand]
      split
      · exact h.le_of_hanging
      · next hbare => exact fun _ => h.shallow.resolve_right hbare
  refine ⟨_, .step hopening rfl (Lexer.inBrackets_settle hq) ?_
      (.step hclosing rfl hsettle ?_ (.refl _)),
    p.skip.skip.nextLine column, s', y, ?_, hs', nextLine_rest hend, rfl⟩
  · change p.skip.rest.length < p.rest.length
    rw [hq, hp]
    simp
  · change (p.skip.skip.nextLine column).rest.length < p.skip.rest.length
    rw [nextLine_rest hend, hq]
    simp
    omega
  · rw [Frame.behind, ← hclose]
    rfl

end Brackets

end Yaml

end BatchRun

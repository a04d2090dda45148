import BatchRun.Proofs.Yaml.Scalars

/-!
# Marks and keys

The marks of items, keys and values open blocks where there are none. A key is known as one only at
its colon, so the two are taken together.

* `Place.leads_dash`, `leads_question`, `leads_colon`: the marks of items, long keys and their
  values;
* `KeyText`: a text that can be a key, **`KeyText.leads_space`, `KeyText.leads_newline`**: a key
  with its colon;
* **`tokenize_of_leads`**: the tokens of a text, from where it leads.
-/

namespace BatchRun

namespace Yaml

open Cursor

variable {f : Frame} {p : Cursor} {allowed : Bool} {s : KeySpot} {x : Lexer.Rest}
  {col column : Nat} {cs body rest : List Char}

/-! ## Marks -/

/-- Items or members may stand at a column of a frame, in its block or in one of their own. -/
structure Frame.Admits (f : Frame) (column : Nat) : Prop where
  least : f.least ≤ column
  block : f.indent < column ∨ f.outer ≠ []

theorem Frame.enter_of_lt (h : f.indent < column) (t : Token) :
    f.enter column t = ⟨column, f.indent :: f.outer, false, t :: f.out⟩ := if_pos h

namespace Frame.Admits

variable {t : Token}

theorem enter_indent (h : f.Admits column) : (f.enter column t).indent = column := by
  rw [Frame.enter]
  split
  · rfl
  · have := h.least
    have := f.indent_le
    change f.indent = column
    omega

theorem enter_outer (h : f.Admits column) : (f.enter column t).outer ≠ [] := by
  rw [Frame.enter]
  split
  · exact List.cons_ne_nil _ _
  · next hle => exact h.block.resolve_left hle

end Frame.Admits

theorem Frame.enter_hanging (f : Frame) (column : Nat) (t : Token) :
    (f.enter column t).hanging = false := by
  rw [Frame.enter]
  split <;> rfl

theorem Frame.Admits.enter_eq {t : Token} (h : f.Admits column) : f.enter column t =
    ⟨column, (f.enter column t).outer, false, (f.enter column t).out⟩ := by
  rw [← f.enter_hanging column t, ← h.enter_indent]

theorem skipToLineEnd_space (hbody : Opens body) (hp : p.rest = ' ' :: body) (tabsToo : Bool) :
    p.skipToLineEnd tabsToo = .ok (⟨false, true⟩, p.skipBlank) := by
  obtain ⟨c, tail, rfl, hc, -⟩ := hbody.start
  have hskip : p.skipBlank.rest = c :: tail := skip_rest_of_rest hp
  have hspace := hc.ne_space
  have htab := hc.ne_tab
  have hhash := hc.hash
  rw [Cursor.skipToLineEnd, hp, List.length_cons, Cursor.skipToLineEndFrom, head_of_rest hp]
  simp [Cursor.skipToLineEndFrom, head_of_rest hskip, hspace, htab, hhash]

theorem skipToLineEnd_here (hbody : Opens body) (hp : p.rest = body) (tabsToo : Bool) :
    p.skipToLineEnd tabsToo = .ok (⟨false, false⟩, p) :=
  (hbody.follows (Int.le_refl 0)).skipToLineEnd hp tabsToo

/-- **The dash of an item.** -/
theorem Place.leads_dash (h : f.Admits col) (hbody : Opens body) :
    Place.Leads ⟨f, '-' :: ' ' :: body, col, true⟩
      ⟨⟨col, (f.enter col .blockSequenceStart).outer, isFlowMark (body.headD endMark),
        .blockEntry :: (f.enter col .blockSequenceStart).out⟩, body, col + 2, true⟩ := by
  set g : Frame := f.enter col .blockSequenceStart with hg
  refine Place.leads_of_content (.of_next ⟨by decide, by decide⟩ (by decide) (by decide) _) h.least
    (by simp only [List.length_cons]; omega) fun p s x hp hcol hs => ?_
  have hp : p.rest = '-' :: ' ' :: body := hp
  have hcol : p.column = col := hcol
  have hq : p.skip.skipBlank.rest = body := skip_rest_of_rest (skip_rest_of_rest hp)
  have hfollows := hbody.follows (Int.le_refl 0)
  refine ⟨⟨col, g.outer, isFlowMark (body.headD endMark), .blockEntry :: g.out⟩, p.skip.skipBlank,
    true, s, x, p.skip.skipBlank, ?_, .inl hs,
    fun s => Lexer.inBlock_skipToToken_here hfollows hq _, hq, ?_, ?_⟩
  · have hcontent : (Lexer.inBlock f p true s x).content =
        (Lexer.inBlock f p true s x).blockEntry := by
      rw [Lexer.content]
      simp only [Lexer.inBlock_pos, head_of_rest hp, peek_one_of_rest hp]
      rfl
    have henter : (Lexer.inBlock f p true s x).openBlock p.column none .blockSequenceStart =
        Lexer.inBlock g p true s x := by
      rw [hcol]
      exact Lexer.inBlock_enter h.least _
    have hmark : (isLineBreak p.skip.skipBlank.head || isFlowMark p.skip.skipBlank.head) =
        isFlowMark (body.headD endMark) := by
      rw [head_eq, hq, hfollows.isLineBreak, Bool.false_or]
    have hcolumn : (if isFlowMark (body.headD endMark) = true then
          (Lexer.inBlock g p.skip.skipBlank true s x).openColumn
        else Lexer.inBlock g p.skip.skipBlank true s x) =
        Lexer.inBlock ⟨col, g.outer, isFlowMark (body.headD endMark), g.out⟩ p.skip.skipBlank true s
          x := by
      rw [Lexer.inBlock_openColumn, Frame.demand_of_ne_nil h.enter_outer, hg, h.enter_eq]
      cases isFlowMark (body.headD endMark) <;> rfl
    rw [hcontent, Lexer.blockEntry]
    simp only [Lexer.inBlock_inFlow, Lexer.inBlock_keyAllowed, Lexer.inBlock_marginProperty,
      Lexer.inBlock_pos, Bool.not_true, Bool.false_and, Bool.false_eq_true, if_false, henter,
      Lexer.inBlock_moveTo, bind, Except.bind, skipToLineEnd_space hbody (skip_rest_of_rest hp),
      skipToLineEnd_here hbody hq, hmark, hcolumn, Lexer.inBlock_dropKey hs]
    rfl
  · change p.column + 1 + 1 = _
    rw [hcol]
  · refine Frame.close_of_least_le ?_
    rw [Frame.least]
    split <;> push_cast <;> omega

/-- **The question mark of a long key.** -/
theorem Place.leads_question (h : f.Admits col) (hbody : Opens body) :
    Place.Leads ⟨f, '?' :: ' ' :: body, col, true⟩
      ⟨(f.enter col .blockMappingStart).emit .key, body, col + 2, true⟩ := by
  set g : Frame := f.enter col .blockMappingStart with hg
  refine Place.leads_of_content (.of_next ⟨by decide, by decide⟩ (by decide) (by decide) _) h.least
    (by simp only [List.length_cons]; omega) fun p s x hp hcol hs => ?_
  have hp : p.rest = '?' :: ' ' :: body := hp
  have hcol : p.column = col := hcol
  have hskip : p.skip.rest = ' ' :: body := skip_rest_of_rest hp
  have hq : p.skip.skipBlank.rest = body := skip_rest_of_rest hskip
  have hfollows := hbody.follows (Int.le_refl 0)
  refine ⟨g.emit .key, p.skip.skipBlank, true, s, x, p.skip.skipBlank, ?_, .inl hs,
    fun s => Lexer.inBlock_skipToToken_here hfollows hq _, hq, ?_, ?_⟩
  · have hcontent : (Lexer.inBlock f p true s x).content =
        (Lexer.inBlock f p true s x).complexKey := by
      rw [Lexer.content]
      simp only [Lexer.inBlock_pos, head_of_rest hp, peek_one_of_rest hp]
      rfl
    have henter : (Lexer.inBlock f p true s x).openBlock p.column none .blockMappingStart =
        Lexer.inBlock g p true s x := by
      rw [hcol]
      exact Lexer.inBlock_enter h.least _
    obtain ⟨c, tail, rfl, hc, -⟩ := hbody.start
    have hspace := hc.ne_space
    have htab := hc.ne_tab
    have hhash := hc.hash
    have hgap : (Lexer.inBlock g p.skip true s x).skipGap (p.skip.rest.length + 2) false =
        .ok (Lexer.inBlock g p.skip.skipBlank true s x) := by
      rw [hskip, List.length_cons, Lexer.skipGap, Lexer.inBlock_pos, head_of_rest hskip]
      simp [Lexer.skipGap, head_of_rest hq, hspace, hhash, hc.isLineBreak]
    rw [hcontent, Lexer.complexKey]
    simp only [Lexer.inBlock_inFlow, Lexer.inBlock_keyAllowed, Lexer.inBlock_pos,
      Bool.false_eq_true, if_false, if_true, henter, bind, Except.bind, Lexer.inBlock_dropKey hs,
      Bool.not_false, Lexer.inBlock_allowKey, Lexer.inBlock_moveTo, Lexer.inBlock_fuel, hgap,
      head_of_rest hq, beq_iff_eq, htab, Lexer.inBlock_emit]
  · change p.column + 1 + 1 = _
    rw [hcol]
  · refine Frame.close_of_least_le ?_
    have hindent : (g.emit .key).indent = col := h.enter_indent
    have hhang : (g.emit .key).hanging = false := f.enter_hanging _ _
    rw [Frame.least, hhang, hindent, if_neg (by simp)]
    push_cast
    omega

/-- **The colon behind a long key.** -/
theorem Place.leads_colon (hindent : f.indent = col) (houter : f.outer ≠ [])
    (hhang : f.hanging = false) (hbody : Opens body) :
    Place.Leads ⟨f, ':' :: ' ' :: body, col, true⟩ ⟨f.hang.emit .value, body, col + 2, true⟩ := by
  have hleast : f.least ≤ col := by rw [Frame.least, hhang, hindent]; simp
  refine Place.leads_of_content (.of_next ⟨by decide, by decide⟩ (by decide) (by decide) _) hleast
    (by simp only [List.length_cons]; omega) fun p s x hp hcol hs => ?_
  have hp : p.rest = ':' :: ' ' :: body := hp
  have hcol : p.column = col := hcol
  have hskip : p.skip.rest = spaces 1 ++ body := skip_rest_of_rest hp
  refine ⟨f.hang.emit .value, p.skip, true, s, x, p.skip.skipSpaces 1, ?_, .inl hs, fun s =>
    Lexer.inBlock_skipToToken_spaces (hbody.follows (Int.le_refl 0)) hskip (by omega),
    skipSpaces_rest hskip, ?_, ?_⟩
  · have hcontent : (Lexer.inBlock f p true s x).content = (Lexer.inBlock f p true s x).value := by
      rw [Lexer.content]
      simp only [Lexer.inBlock_pos, head_of_rest hp, peek_one_of_rest hp]
      rfl
    have hafter : Lexer.afterColon p.skip = .ok p.skip := by
      rw [Lexer.afterColon, head_of_rest (c := ' ') hskip]
      rfl
    have henter : (Lexer.inBlock f p.skip true s x).openBlock p.column none .blockMappingStart =
        Lexer.inBlock f p.skip true s x := by
      rw [hcol, Lexer.inBlock_enter hleast, Frame.enter, if_neg (by omega), Frame.steady, ← hhang]
    rw [hcontent, Lexer.value]
    simp only [Lexer.inBlock_pos, hafter, bind, Except.bind, Lexer.inBlock_spot, hs,
      Bool.false_eq_true, if_false]
    change Except.ok (Lexer.emit .value (Lexer.allowKey true ((Lexer.inBlock f p.skip true s
      x).openBlock p.column none .blockMappingStart).openColumn)) = _
    rw [henter, Lexer.inBlock_openColumn, Frame.demand_of_ne_nil houter]
    rfl
  · change p.column + 1 + 1 = _
    rw [hcol]
  · refine Frame.close_of_least_le ?_
    change f.indent + 1 ≤ _
    rw [hindent]
    push_cast
    omega

/-! ## Keys on the line of their value -/

/-- A text that can be a key on the line of its value, and what it is read as. -/
structure KeyText (text : List Char) (t : Token) : Prop where
  ne_nil : text ≠ []
  short : text.length ≤ 1024
  opens : ∀ rest, EndsScalar rest → Opens (text ++ rest)
  content : ∀ {f p s x c rest}, isWordEnd c = true → p.rest = text ++ ':' :: c :: rest →
    f.least ≤ p.column → ∃ g x', (g = f ∨ g = f.steady) ∧
      (Lexer.inBlock f p true s x).content =
        .ok (Lexer.inBlock (g.emit t) (p.skipMany text.length) false (Lexer.spotAt f p) x')

theorem keyText_plain (hcs : PlainText cs) (hshort : cs.length ≤ 1024) :
    KeyText cs (.scalar true (String.ofList cs)) := by
  refine ⟨hcs.ne_nil, hshort, fun rest hrest => hcs.opens hrest,
    fun {f p s x c rest} hc hp hleast => ?_⟩
  refine ⟨f.steady, x, .inr rfl, ?_⟩
  have hread := readPlain_colon hcs hc hp
    (Int.add_le_add_right (Int.le_trans f.indent_le hleast) 1)
  have hfresh : (p.skipMany cs.length).fresh = false :=
    skipMany_fresh (.inr fun h => hcs.ne_nil (List.length_eq_zero_iff.1 h))
  rw [Lexer.content_plain hcs hp, Lexer.plainScalar, Lexer.inBlock_saveKey,
    Lexer.inBlock_allowKey, Lexer.inBlock_closeColumns]
  simp only [Lexer.inBlock_inFlow, Lexer.inBlock_pos, Lexer.inBlock_indent]
  change (do let r ← readPlain false (f.indent + 1) p; _ : Except Problem Lexer) = _
  rw [hread]
  change Except.ok (Lexer.emit _ (if (p.skipMany cs.length).fresh = true then _ else _)) = _
  rw [hfresh]
  rfl

theorem keyText_quoted {single : Bool} {enc : Char → List Char} (hspace : enc ' ' = [' '])
    (hshow : ∀ c ∈ cs, c ≠ ' ' → Shows single (enc c) c)
    (hshort : (quoted single enc cs).length ≤ 1024) :
    KeyText (quoted single enc cs) (.scalar false (String.ofList cs)) := by
  refine ⟨by simp [quoted], hshort, fun rest hrest => opens_quoted,
    fun {f p s x c rest} hc hp hleast => ?_⟩
  have hq := skipMany_rest_append hp
  have hcolon : Opens (':' :: c :: rest) := by
    refine .of_next ⟨by decide, by decide⟩ (by decide) ?_ _
    rintro rfl
    cases hc
  exact ⟨f, _, .inl rfl, Lexer.content_quoted hspace hshow hp (.colon hc rest) hleast
    fun s => Lexer.inBlock_skipToToken_here (hcolon.follows (Int.le_refl 0)) hq _⟩

/-- The frame behind a key and its colon. -/
def Frame.enterMember (f : Frame) (column : Nat) (t : Token) : Frame :=
  ((f.enter column .blockMappingStart).emits [.key, t, .value]).hang

theorem Lexer.value_of_spot {g : Frame} {q : Cursor} {t : Token} {c : Char}
    (h : f.Admits p.column) (hg : g = f ∨ g = f.steady) (hq : q.rest = ':' :: c :: rest)
    (hc : c ≠ '\t') : (Lexer.inBlock (g.emit t) q false (Lexer.spotAt f p) x).value =
      .ok (Lexer.inBlock (f.enterMember p.column t) q.skip false
        { Lexer.spotAt f p with possible := false } x) := by
  have hafter : Lexer.afterColon q.skip = .ok q.skip := by
    rw [Lexer.afterColon, head_of_rest (skip_rest_of_rest hq), if_neg (by simpa using hc)]
  have hout : g.out = f.out := by obtain rfl | rfl := hg <;> rfl
  set k : Frame := { g with out := [t, .key] ++ f.out } with hk
  have hleast : k.least ≤ p.column := by
    obtain rfl | rfl := hg
    · exact h.least
    · exact Int.le_trans f.indent_le h.least
  set s := Lexer.spotAt f p with hs
  have hkey : (Lexer.inBlock (g.emit t) q.skip false s x).emitAt f.out.length .key =
      Lexer.inBlock k q.skip false s x := by
    rw [Lexer.inBlock_emitAt (show (g.emit t).out = [t] ++ f.out by rw [← hout]; rfl)]
    rfl
  have hopen : (Lexer.inBlock k q.skip false s x).openBlock p.column (some f.out.length)
      .blockMappingStart =
      Lexer.inBlock ((f.enter p.column .blockMappingStart).emits [.key, t]) q.skip false s x := by
    have hindent : k.indent = f.indent := by obtain rfl | rfl := hg <;> rfl
    have houter : k.outer = f.outer := by obtain rfl | rfl := hg <;> rfl
    rw [Lexer.inBlock_openBlock hleast, Frame.enter, hindent, houter]
    split
    · exact Lexer.inBlock_emitAt rfl _
    · obtain rfl | rfl := hg <;> rfl
  set m := (((Lexer.inBlock (g.emit t) q.skip false s x).emitAt f.out.length .key).openBlock
    p.column (some f.out.length) .blockMappingStart).openColumn with hm
  have houter : ((f.enter p.column .blockMappingStart).emits [.key, t]).outer ≠ [] := h.enter_outer
  rw [hkey, hopen, Lexer.inBlock_openColumn, Frame.demand_of_ne_nil houter] at hm
  rw [Lexer.value]
  simp only [Lexer.inBlock_pos, hafter, bind, Except.bind, Lexer.inBlock_spot,
    show s.possible = true from rfl, if_true]
  change Except.ok (Lexer.emit .value (Lexer.allowKey false
    (Lexer.setSpot { m.spot with possible := false } m))) = _
  rw [hm]
  rfl

theorem Lexer.token_colon {g : Frame} {q : Cursor} {t : Token} {c : Char}
    (h : f.Admits p.column) (hg : g = f ∨ g = f.steady) (hq : q.rest = ':' :: c :: rest)
    (hc : isWordEnd c = true) (htab : c ≠ '\t') (hlt : p.column < q.column) :
    (Lexer.inBlock (g.emit t) q false (Lexer.spotAt f p) x).token =
      .ok (Lexer.inBlock (f.enterMember p.column t) q.skip false
        { Lexer.spotAt f p with possible := false } x) := by
  have hleast : (g.emit t).least ≤ q.column := by
    have hle : g.least ≤ f.least := by
      obtain rfl | rfl := hg
      · exact Int.le_refl _
      · exact f.indent_le
    have := h.least
    change g.least ≤ _
    omega
  have hcontent : (Lexer.inBlock (g.emit t) q false (Lexer.spotAt f p) x).content =
      (Lexer.inBlock (g.emit t) q false (Lexer.spotAt f p) x).value := by
    rw [Lexer.content]
    simp only [Lexer.inBlock_pos, head_of_rest hq, peek_one_of_rest hq, List.headD_cons, hc]
    rfl
  rw [Lexer.inBlock_token hq ⟨by decide, by decide⟩ (by decide) (atAnyMarker_of_column (by omega))
    hleast, hcontent, Lexer.value_of_spot h hg hq htab]

theorem KeyText.leads {text : List Char} {t : Token} (hkey : KeyText text t) (h : f.Admits col)
    {c : Char} (hc : isWordEnd c = true) (htab : c ≠ '\t') {b : Place}
    (hframe : (f.enterMember col t).close b.column = b.frame) (hshort : b.rest.length ≤ rest.length)
    (hskip : ∀ p x, p.rest = c :: rest → p.column = col + text.length + 1 →
      ∃ q, (∀ s, (Lexer.inBlock (f.enterMember col t) p false s x).skipToToken (p.rest.length + 2) =
        .ok (Lexer.inBlock (f.enterMember col t) q b.allowed s x)) ∧ q.rest = b.rest ∧
        q.column = b.column) :
    Place.Leads ⟨f, text ++ ':' :: c :: rest, col, true⟩ b := by
  rintro m ⟨p, s, x, rfl, hs, hp, hcol⟩
  have hp : p.rest = text ++ ':' :: c :: rest := hp
  obtain rfl : p.column = col := hcol
  obtain ⟨g, y, hg, hscalar⟩ : ∃ g y, (g = f ∨ g = f.steady) ∧
      (Lexer.inBlock f p true s x).content = .ok (Lexer.inBlock (g.emit t) (p.skipMany text.length)
        false (Lexer.spotAt f p) y) := hkey.content hc hp h.least
  have hq := skipMany_rest_append hp
  have hqcolumn := skipMany_column text.length p
  have hlt : p.column < (p.skipMany text.length).column := by
    have := List.length_pos_iff.2 hkey.ne_nil
    omega
  have hnear : (Lexer.spotAt f p).isFar (p.skipMany text.length) = false := by
    have := hkey.short
    simp [KeySpot.isFar, Lexer.spotAt]
    omega
  set q := p.skipMany text.length with hqdef
  obtain ⟨a, tail, hstart, ha, hpercent⟩ := (hkey.opens _ (.colon hc rest)).start
  rw [← Lexer.inBlock_token (hp.trans hstart) ha hpercent
    ((hkey.opens _ (.colon hc rest)).marker p hp) h.least] at hscalar
  have hleast : (g.emit t).least ≤ q.column := by
    have := h.least
    have := f.indent_le
    obtain rfl | rfl := hg
    · change g.least ≤ _
      omega
    · change f.indent ≤ _
      omega
  have hsettle : (Lexer.inBlock (g.emit t) q false (Lexer.spotAt f p) y).settle =
      .ok (Lexer.inBlock (g.emit t) q false (Lexer.spotAt f p) y) :=
    Lexer.inBlock_settle_near hnear hleast (Lexer.inBlock_skipToToken_here
      (.token ⟨by decide, by decide⟩ (Int.le_refl 0) _) hq _)
  have hcolon : (Lexer.inBlock (g.emit t) q false (Lexer.spotAt f p) y).token =
      .ok (Lexer.inBlock (f.enterMember p.column t) q.skip false
        { Lexer.spotAt f p with possible := false } y) :=
    Lexer.token_colon h hg hq hc htab hlt
  obtain ⟨r, hskip, hr, hrcolumn⟩ :=
    hskip q.skip y (skip_rest_of_rest hq) (by rw [skip_column, hqcolumn])
  have hused : ({ Lexer.spotAt f p with possible := false } : KeySpot).possible = false := rfl
  obtain ⟨s', hsettle', hs'⟩ := Lexer.inBlock_settle (.inl hused) hskip
  rw [hrcolumn, hframe] at hsettle'
  refine ⟨_, .step hscalar rfl hsettle ?_ (.step hcolon rfl hsettle' ?_ (.refl _)), r, s', y, rfl,
    hs', hr, hrcolumn⟩
  · change q.rest.length < p.rest.length
    have := List.length_pos_iff.2 hkey.ne_nil
    rw [hq, hp, List.length_append]
    omega
  · change r.rest.length < q.rest.length
    rw [hr, hq, List.length_cons, List.length_cons]
    omega

variable {text : List Char} {t : Token} (hkey : KeyText text t) (h : f.Admits col)

theorem Frame.Admits.enterMember_least (h : f.Admits col) (t : Token) :
    (f.enterMember col t).least = col + 1 := by
  change (f.enter col .blockMappingStart).indent + 1 = _
  rw [h.enter_indent]

include hkey h

/-- **A key with its colon, the value being on the same line.** -/
theorem KeyText.leads_space (hbody : Opens body) :
    Place.Leads ⟨f, text ++ ':' :: ' ' :: body, col, true⟩
      ⟨f.enterMember col t, body, col + text.length + 2, false⟩ := by
  refine hkey.leads h (by decide) (by decide) ?_ (Nat.le_refl _) fun p x hp hcol => ?_
  · refine Frame.close_of_least_le ?_
    rw [h.enterMember_least]
    push_cast
    omega
  · have hp : p.rest = spaces 1 ++ body := hp
    refine ⟨p.skipSpaces 1, fun s => ?_, skipSpaces_rest hp, ?_⟩
    · exact Lexer.inBlock_skipToToken_spaces (hbody.follows (Int.le_refl 0)) hp (by omega)
    · change p.column + 1 = _
      rw [hcol]

/-- **A key with its colon, the value being on the next line.** -/
theorem KeyText.leads_newline (hbody : Opens body) (column : Nat) :
    Place.Leads ⟨f, text ++ ':' :: '\n' :: (spaces column ++ body), col, true⟩
      ⟨(f.enterMember col t).close column, body, column, true⟩ := by
  refine hkey.leads h (by decide) (by decide) rfl (by simp) fun p x hp hcol => ?_
  refine ⟨p.nextLine column, fun s => ?_, nextLine_rest hp, rfl⟩
  exact Lexer.inBlock_skipToToken_newline (hbody.follows (Int.le_refl column)) hp
    (by rw [hp]; simp [spaces]; omega)

omit hkey h

/-! ## The whole text -/

theorem Place.Holds.token_end {m : Lexer} (h : Place.Holds ⟨f, [], column, allowed⟩ m) :
    ∃ o, m.token = .ok o ∧ o.finished = true ∧ o.out = .streamEnd :: (f.close (-1)).out := by
  obtain ⟨p, s, x, rfl, hs, hp, -⟩ := h
  have hfinish : (Lexer.inBlock f p allowed s x).token =
      (Lexer.inBlock f p allowed s x).finish := by
    rw [Lexer.token]
    simp only [Lexer.inBlock_pos, head_of_nil hp]
    rfl
  set used : KeySpot := { s with possible := false } with hused
  refine ⟨Lexer.emit .streamEnd { Lexer.inBlock (f.close (-1)) p false used x with
    finished := true }, ?_, rfl, rfl⟩
  have hkeys : (Lexer.inBlock f p allowed s x).keys.any
      (fun (s : KeySpot) => s.possible && s.required) = false := by
    simp [Lexer.inBlock, hs]
  rw [hfinish, Lexer.finish, hkeys, if_neg (by simp)]
  change Except.ok { Lexer.emit .streamEnd (Lexer.allowKey false
    ((Lexer.inBlock f p allowed used x).closeBlocks (-1))) with finished := true } = _
  rw [Lexer.inBlock_closeBlocks]
  rfl

/-- The place at the start of a text. -/
def Place.start (cs : List Char) : Place := ⟨⟨-1, [], false, [.streamStart]⟩, cs, 0, true⟩

/-- **The tokens of a text, from where it leads.** -/
theorem tokenize_of_leads (hclean : ∀ c ∈ cs, isEndMark c = false) (hopens : Opens cs)
    (h : (Place.start cs).Leads ⟨f, [], column, allowed⟩) :
    tokenize (String.ofList cs) = ⟨(.streamEnd :: (f.close (-1)).out).reverse, none⟩ := by
  have hrest := Cursor.start_rest hclean
  have hskip (s : KeySpot) : (Lexer.inBlock (Place.start cs).frame (Cursor.start cs) true s
      ⟨false, 0⟩).skipToToken ((Cursor.start cs).rest.length + 2) = .ok (Lexer.inBlock
        (Place.start cs).frame (Cursor.start cs) true s ⟨false, 0⟩) :=
    Lexer.inBlock_skipToToken_here (hopens.follows (Int.le_refl 0)) hrest _
  have hnone : KeySpot.none.possible = false := rfl
  obtain ⟨s, hsettle, hs⟩ := Lexer.inBlock_settle (.inl hnone) hskip
  obtain ⟨m, hm, hholds⟩ := h _ ⟨Cursor.start cs, s, ⟨false, 0⟩, rfl, hs, hrest, rfl⟩
  obtain ⟨o, htoken, hfinished, hout⟩ := hholds.token_end
  rw [tokenize, String.toList_ofList, ← hout]
  exact Lexer.lexFrom_of_leads rfl hsettle hm htoken hfinished (by
    change (Cursor.start cs).rest.length + 1 < _
    rw [hrest]
    omega)

end Yaml

end BatchRun

import BatchRun.Proofs.Yaml.Marks

/-!
# Reading tokens in flow collections

In brackets nothing depends on columns: the state is given by the spots of the collections around,
the position, and whether a key may start there. The same states stand for a text that is nothing
but one node.

* `Lexer.inside`: the state in some collections;
* `FlowPlace`, `FlowPlace.Leads`: how a text leads from one place to another;
* `Closes`: what may follow a node;
* **`FlowPlace.leads_word`, `leads_quoted`**: scalars; **`FlowPlace.leads_key`**: a key with its
  colon;
* `FlowPlace.Holds.opening`, `FlowPlace.leads_closing`, `FlowPlace.leads_comma`: brackets and
  commas;
* **`tokenize_of_flow`**: the tokens of a text, from where it leads.
-/

namespace BatchRun

namespace Yaml

open Cursor

/-! ## States in flow collections -/

namespace Lexer

/-- The state in flow collections, from the spots of keys around the innermost one on; without any
it is the state of a node that is the whole text. -/
def inside (outer : List KeySpot) (out : List Token) (p : Cursor) (allowed : Bool) (s : KeySpot)
    (x : Rest) : Lexer :=
  ⟨p, out, out.length, allowed, s :: outer, -1, [], outer.length, x.mappingStarted, false,
    x.adjacent, false, false⟩

variable (outer : List KeySpot) (out : List Token) (p q : Cursor) (allowed : Bool) (s : KeySpot)
  (x : Rest)

@[simp] theorem inside_pos : (inside outer out p allowed s x).pos = p := rfl
@[simp] theorem inside_indent : (inside outer out p allowed s x).indent = -1 := rfl
@[simp] theorem inside_spot : (inside outer out p allowed s x).spot = s := rfl
@[simp] theorem inside_keys : (inside outer out p allowed s x).keys = s :: outer := rfl
@[simp] theorem inside_flow : (inside outer out p allowed s x).flow = outer.length := rfl

@[simp] theorem inside_inFlow :
    (inside outer out p allowed s x).inFlow = (outer.length != 0) := rfl

@[simp] theorem inside_moveTo :
    (inside outer out p allowed s x).moveTo q = inside outer out q allowed s x := rfl

@[simp] theorem inside_allowKey (a : Bool) :
    (inside outer out p allowed s x).allowKey a = inside outer out p a s x := rfl

@[simp] theorem inside_setSpot (s' : KeySpot) :
    (inside outer out p allowed s x).setSpot s' = inside outer out p allowed s' x := rfl

@[simp] theorem inside_openColumn :
    (inside outer out p allowed s x).openColumn = inside outer out p allowed s x := by
  simp [openColumn, inside]

@[simp] theorem inside_closeColumns :
    (inside outer out p allowed s x).closeColumns = inside outer out p allowed s x := rfl

@[simp] theorem inside_closeBlocks (column : Int) :
    (inside outer out p allowed s x).closeBlocks column = inside outer out p allowed s x := by
  rw [closeBlocks]
  split <;> rfl

/-- The spot from a position on. -/
def savedInside : KeySpot :=
  if allowed then ⟨true, false, out.length, p.index, p.line, p.column⟩ else s

theorem inside_saveKey : (inside outer out p allowed s x).saveKey =
    inside outer out p allowed (savedInside out p allowed s) x := by
  cases allowed
  · rfl
  · simp [saveKey, inside, savedInside, setSpot]

variable {outer out p q allowed s x}

theorem savedInside_required (hs : s.required = false) :
    (savedInside out p allowed s).required = false := by
  cases allowed
  · exact hs
  · rfl

theorem inside_dropKey (hs : s.required = false) : (inside outer out p allowed s x).dropKey =
    .ok (inside outer out p allowed { s with possible := false } x) := by
  rw [dropKey, inside_spot, hs, if_neg (by simp), inside_setSpot, ← hs]

/-! ## Steps -/

/-- The spot once those out of reach are given up, of which there are none in collections. -/
def fadedInside (outer : List KeySpot) (p : Cursor) (s : KeySpot) : KeySpot :=
  if outer.isEmpty then s.fade p else s

theorem fadedInside_required (hs : s.required = false) :
    (fadedInside outer p s).required = false := by
  cases outer <;> exact hs

theorem inside_staleKeys (hs : s.required = false) : (inside outer out p allowed s x).staleKeys =
    .ok (inside outer out p allowed (fadedInside outer p s) x) := by
  cases outer with
  | nil => exact staleKeys_of_keys rfl rfl (.inl hs)
  | cons o outer => simp [staleKeys, inside, inFlow, fadedInside]

theorem inside_skipToToken {column : Nat} {least : Int} {body : List Char}
    (hbody : Follows least column body) (hp : p.rest = body) (fuel : Nat) :
    (inside outer out p allowed s x).skipToToken fuel = .ok (inside outer out p allowed s x) := by
  refine skipToToken_here hbody ?_ fuel
  rw [inside_pos, hp]

theorem inside_settle {column : Nat} {least : Int} {body : List Char}
    (hbody : Follows least column body) (hp : p.rest = body) (hs : s.required = false) :
    (inside outer out p allowed s x).settle =
      .ok (inside outer out p allowed (fadedInside outer p s) x) := by
  have htwice : fadedInside outer p (fadedInside outer p s) = fadedInside outer p s := by
    cases outer with
    | nil => simp [fadedInside, KeySpot.fade, KeySpot.isFar]
    | cons o outer => rfl
  rw [settle, inside_staleKeys hs]
  simp only [bind, Except.bind, inside_skipToToken hbody hp,
    inside_staleKeys (fadedInside_required hs), htwice, inside_pos, inside_closeBlocks]

theorem inside_token (hopens : Opens p.rest) :
    (inside outer out p allowed s x).token = (inside outer out p allowed s x).content := by
  obtain ⟨c, rest, hp, hc, hpercent⟩ := hopens.start
  obtain ⟨hhyphens, hpoints⟩ := Bool.or_eq_false_iff.1 (hopens.marker p rfl)
  have hpercent : (c == '%') = false := beq_eq_false_iff_ne.2 hpercent
  rw [token]
  simp only [inside_pos, Cursor.head_of_rest hp, hc.isEndMark, hpercent, Bool.and_false, hhyphens,
    hpoints, Bool.false_eq_true, if_false, inside_indent]
  exact if_neg (by omega)

end Lexer

/-! ## Places -/

/-- A place in flow collections: the spots of keys around, the tokens so far, whether a mapping has
been started, whether a key may start, and what stands ahead. -/
structure FlowPlace where
  outer : List KeySpot
  out : List Token
  mapped : Bool
  allowed : Bool
  rest : List Char

namespace FlowPlace

/-- The state is at a token at the place. -/
def Holds (a : FlowPlace) (m : Lexer) : Prop :=
  ∃ p s x, m = .inside a.outer a.out p a.allowed s x ∧ s.required = false ∧
    (a.mapped = true → x.mappingStarted = true) ∧ p.rest = a.rest

/-- From every state at the first place steps lead to a state at the second one. -/
def Leads (a b : FlowPlace) : Prop := ∀ m, a.Holds m → ∃ m', Lexer.Leads m m' ∧ b.Holds m'

theorem Leads.refl (a : FlowPlace) : Leads a a := fun m hm => ⟨m, .refl m, hm⟩

theorem Leads.trans {a b c : FlowPlace} (h : Leads a b) (h' : Leads b c) : Leads a c := by
  intro m hm
  obtain ⟨m', hm', hb⟩ := h m hm
  obtain ⟨m'', hm'', hc⟩ := h' m' hb
  exact ⟨m'', hm'.trans hm'', hc⟩

/-- A token leads to a place if it is read as the tokens there, what follows it being ahead. -/
theorem Holds.leads_of_content {a b : FlowPlace} {p q : Cursor} {s t : KeySpot} {x y : Lexer.Rest}
    {column : Nat} {least : Int} (hopens : Opens p.rest)
    (hcontent : (Lexer.inside a.outer a.out p a.allowed s x).content =
      .ok (.inside b.outer b.out q b.allowed t y))
    (hfollows : Follows least column b.rest) (hq : q.rest = b.rest)
    (hshort : b.rest.length < p.rest.length) (ht : t.required = false)
    (hy : b.mapped = true → y.mappingStarted = true) :
    ∃ m, Lexer.Leads (.inside a.outer a.out p a.allowed s x) m ∧ b.Holds m := by
  rw [← Lexer.inside_token hopens] at hcontent
  refine ⟨_, .step hcontent rfl (Lexer.inside_settle hfollows hq ht) ?_ (.refl _), q, _, y, rfl,
    Lexer.fadedInside_required ht, hy, hq⟩
  change q.rest.length < p.rest.length
  rwa [hq]

end FlowPlace

/-- The marks that tokens in flow collections are made of. -/
def flowMarks : List Char := ['[', ']', '{', '}', ',', ':']

theorem opens_mark {c : Char} (hc : c ∈ flowMarks) (rest : List Char) : Opens (c :: rest) := by
  simp only [flowMarks, List.mem_cons, List.not_mem_nil, or_false] at hc
  obtain rfl | rfl | rfl | rfl | rfl | rfl := hc <;>
    exact .of_head ⟨by decide, by decide⟩ (by decide) (by decide) (by decide) _

/-! ## What follows a node -/

/-- What may follow a node: the end of the text, or in collections a comma or a bracket. -/
inductive Closes : List KeySpot → List Char → Prop where
  | stop : Closes [] []
  | mark {c : Char} (hc : c = ',' ∨ c = ']' ∨ c = '}') (s : KeySpot) (outer : List KeySpot)
      (rest : List Char) : Closes (s :: outer) (c :: rest)

namespace Closes

variable {outer : List KeySpot} {tail : List Char}

theorem follows (h : Closes outer tail) : Follows 0 0 tail := by
  cases h with
  | stop => exact .stop
  | mark hc =>
    refine .token ?_ (Int.le_refl 0) _
    obtain rfl | rfl | rfl := hc <;> exact ⟨by decide, by decide⟩

theorem endsWord (h : Closes outer tail) {p : Cursor} (hp : p.rest = tail) :
    (isWordEnd p.head || !continuesPlain (outer.length != 0) p) = true := by
  cases h with
  | stop => rw [head_of_nil hp]; rfl
  | mark hc =>
    rw [continuesPlain, head_of_rest hp]
    obtain rfl | rfl | rfl := hc <;> simp [isFlowMark]

theorem isBlank (h : Closes outer tail) {p : Cursor} (hp : p.rest = tail) :
    (isSpaceOrTab p.head || isLineBreak p.head) = false := by
  rw [head_eq, hp, h.follows.isSpaceOrTab, h.follows.isLineBreak]
  rfl

end Closes

/-- What may follow a quoted scalar: in collections it may be a key. -/
inductive ClosesQuoted : List KeySpot → List Char → Prop where
  | node {outer : List KeySpot} {tail : List Char} (h : Closes outer tail) : ClosesQuoted outer tail
  | colon (s : KeySpot) (outer : List KeySpot) (rest : List Char) :
      ClosesQuoted (s :: outer) (':' :: rest)

namespace ClosesQuoted

variable {outer : List KeySpot} {tail : List Char}

theorem follows (h : ClosesQuoted outer tail) : Follows 0 0 tail := by
  cases h with
  | node h => exact h.follows
  | colon => exact .token ⟨by decide, by decide⟩ (Int.le_refl 0) _

theorem ne_quote (h : ClosesQuoted outer tail) : tail.headD endMark ≠ '\'' := by
  obtain ⟨_ | hc⟩ | _ := h
  · decide
  · obtain rfl | rfl | rfl := hc <;> simp
  · simp

theorem mayFollow (h : ClosesQuoted outer tail) {p : Cursor} (hp : p.rest = tail) (line : Nat) :
    mayFollowQuoted (outer.length != 0) line p = true := by
  rw [mayFollowQuoted, head_eq, hp]
  obtain ⟨_ | hc⟩ | _ := h
  · rfl
  · obtain rfl | rfl | rfl := hc <;> simp
  · simp

end ClosesQuoted

/-! ## Words -/

/-- The characters of the words of the compact form. -/
def IsBare (c : Char) : Prop := isNameChar c = true ∨ c = '.' ∨ c = '+'

instance (c : Char) : Decidable (IsBare c) := inferInstanceAs (Decidable (_ ∨ _ ∨ _))

theorem IsBare.ne {c d : Char} (hc : IsBare c) (hd : ¬ IsBare d) : c ≠ d := by
  rintro rfl
  exact hd hc

theorem IsBare.isWordEnd {c : Char} (hc : IsBare c) : isWordEnd c = false := by
  have hend : c.toNat ≠ 0 := fun h => hc.ne (by decide : ¬ IsBare endMark) (Char.toNat_inj.1 h)
  simp [Yaml.isWordEnd, isSpaceOrTab, isLineEnd, isLineBreak, isEndMark, hend,
    hc.ne (by decide : ¬ IsBare ' '), hc.ne (by decide : ¬ IsBare '\t'),
    hc.ne (by decide : ¬ IsBare '\n'), hc.ne (by decide : ¬ IsBare '\r')]

theorem IsBare.isFlowMark {c : Char} (hc : IsBare c) : isFlowMark c = false := by
  simp [Yaml.isFlowMark, hc.ne (by decide : ¬ IsBare ','), hc.ne (by decide : ¬ IsBare '['),
    hc.ne (by decide : ¬ IsBare ']'), hc.ne (by decide : ¬ IsBare '{'),
    hc.ne (by decide : ¬ IsBare '}')]

/-- A text that may stand without quotes in collections: a hyphen at its start is followed by
something else. -/
structure FlowWord (cs : List Char) : Prop where
  start : ∃ c rest, cs = c :: rest ∧ isNameChar c = true ∧
    (c = '-' → ∃ d more, rest = d :: more ∧ d ≠ '-')
  chars : ∀ c ∈ cs, IsBare c

namespace FlowWord

variable {cs tail : List Char} {p : Cursor}

theorem ne_nil (h : FlowWord cs) : cs ≠ [] := by
  obtain ⟨c, rest, rfl, -⟩ := h.start
  exact List.cons_ne_nil _ _

theorem startsToken {c : Char} (hc : IsBare c) : StartsToken c :=
  ⟨hc.isWordEnd, hc.ne (by decide)⟩

theorem opens (h : FlowWord cs) (tail : List Char) : Opens (cs ++ tail) := by
  obtain ⟨c, rest, rfl, hname, hhyphen⟩ := h.start
  have hc : IsBare c := .inl hname
  have hpercent : c ≠ '%' := hc.ne (by decide)
  by_cases heq : c = '-'
  · obtain ⟨d, more, rfl, hd⟩ := hhyphen heq
    exact .of_next (startsToken hc) hpercent (heq ▸ hd) _
  · refine .of_head (startsToken hc) hpercent heq ?_ _
    rintro rfl
    cases hname

theorem readPlainWord_run (hcs : ∀ c ∈ cs, IsBare c) {inFlow : Bool}
    (hend : ∀ q : Cursor, q.rest = tail → (isWordEnd q.head || !continuesPlain inFlow q) = true)
    (hp : p.rest = cs ++ tail) {fuel : Nat} (hfuel : cs.length ≤ fuel) (seen : List Char) :
    readPlainWord inFlow fuel seen p = (cs.reverse ++ seen, p.skipMany cs.length) := by
  induction cs generalizing p fuel seen with
  | nil =>
    cases fuel with
    | zero => rfl
    | succ fuel =>
      rw [readPlainWord, hend p hp]
      rfl
  | cons c cs ih =>
    obtain ⟨fuel, rfl⟩ : ∃ n, fuel = n + 1 := ⟨fuel - 1, by simp at hfuel; omega⟩
    obtain ⟨hc, hcs⟩ := List.forall_mem_cons.1 hcs
    have hhead : p.head = c := head_of_rest hp
    have hcontinues : continuesPlain inFlow p = true := by
      simp [continuesPlain, hhead, hc.ne (by decide : ¬ IsBare ':'), hc.isFlowMark]
    rw [readPlainWord, hcontinues, hhead, hc.isWordEnd]
    simp only [Bool.not_true, Bool.or_self, Bool.false_eq_true, if_false]
    rw [ih hcs (skip_rest_of_rest hp) (by simpa using hfuel)]
    simp [skipMany]

theorem readPlain_run (h : FlowWord cs) {outer : List KeySpot} (htail : Closes outer tail)
    (hp : p.rest = cs ++ tail) :
    readPlain (outer.length != 0) 0 p = .ok (String.ofList cs, p.skipMany cs.length) := by
  have hopens := h.opens tail
  have hmarker := hopens.marker p hp
  obtain ⟨c, rest, hcs, hname, hhyphen⟩ := h.start
  have hc : IsBare c := .inl hname
  have hrest : p.rest = c :: (rest ++ tail) := by rw [hp, hcs]; rfl
  have hhead : p.head = c := head_of_rest hrest
  have hdash : (c == '-' && isFlowMark (p.peek 1)) = false := by
    rw [Bool.and_eq_false_iff]
    by_cases heq : c = '-'
    · obtain ⟨d, more, rfl, -⟩ := hhyphen heq
      rw [peek_one_of_rest hrest]
      exact .inr (h.chars d (by rw [hcs]; simp)).isFlowMark
    · exact .inl (beq_eq_false_iff_ne.2 heq)
  have hhash : (c == '#') = false := beq_eq_false_iff_ne.2 (hc.ne (by decide))
  have hcontinues : continuesPlain (outer.length != 0) p = true := by
    simp [continuesPlain, hhead, hc.ne (by decide : ¬ IsBare ':'), hc.isFlowMark]
  have hword : readPlainWord (outer.length != 0) p.rest.length [] p =
      (cs.reverse ++ [], p.skipMany cs.length) :=
    readPlainWord_run h.chars (fun q hq => htail.endsWord hq) hp
      (by rw [hp, List.length_append]; omega) []
  have hblank := htail.isBlank (skipMany_rest_append hp)
  have hseen : (if p.fresh then Gap.none.folded.reverse ++ [] else Gap.none.blanks ++ []) = [] := by
    cases p.fresh <;> rfl
  rw [readPlain, if_neg (by simp), readPlainFrom, hmarker, hhead, hcontinues, hc.isWordEnd]
  simp only [hhash, Bool.and_assoc, hdash, Bool.and_false, Bool.or_self, Bool.not_true,
    Bool.false_eq_true, if_false, hseen, hword, hblank, Bool.not_false, if_true]
  simp [Except.map]

theorem content_eq (h : FlowWord cs) {outer : List KeySpot} {out : List Token} {allowed : Bool}
    {s : KeySpot} {x : Lexer.Rest} (hp : p.rest = cs ++ tail) :
    (Lexer.inside outer out p allowed s x).content =
      (Lexer.inside outer out p allowed s x).plainScalar := by
  obtain ⟨c, rest, hcs, hname, hhyphen⟩ := h.start
  have hc : IsBare c := .inl hname
  have hrest : p.rest = c :: (rest ++ tail) := by rw [hp, hcs]; rfl
  have hne (d : Char) (hd : ¬ IsBare d) : (c == d) = false := beq_eq_false_iff_ne.2 (hc.ne hd)
  have hdash : (c == '-' && isWordEnd (p.peek 1)) = false := by
    rw [Bool.and_eq_false_iff]
    by_cases heq : c = '-'
    · obtain ⟨d, more, rfl, -⟩ := hhyphen heq
      rw [peek_one_of_rest hrest]
      exact .inr (h.chars d (by rw [hcs]; simp)).isWordEnd
    · exact .inl (beq_eq_false_iff_ne.2 heq)
  rw [Lexer.content]
  simp only [Lexer.inside_pos, head_of_rest hrest, hdash, hne '[' (by decide),
    hne '{' (by decide), hne ']' (by decide), hne '}' (by decide), hne ',' (by decide),
    hne '?' (by decide), hne ':' (by decide), hne '*' (by decide), hne '&' (by decide),
    hne '!' (by decide), hne '|' (by decide), hne '>' (by decide), hne '\'' (by decide),
    hne '"' (by decide), hne '%' (by decide), hne '@' (by decide), hne '`' (by decide),
    Bool.false_and, Bool.or_self, Bool.false_eq_true, if_false]

end FlowWord

/-! ## Scalars -/

namespace FlowPlace

variable {outer : List KeySpot} {out : List Token} {mapped allowed : Bool} {cs tail : List Char}

/-- **A word before what closes it.** -/
theorem leads_word (h : FlowWord cs) (htail : Closes outer tail) :
    Leads ⟨outer, out, mapped, allowed, cs ++ tail⟩
      ⟨outer, .scalar true (String.ofList cs) :: out, mapped, false, tail⟩ := by
  rintro m ⟨p, s, x, rfl, hs, hx, hp⟩
  have hp : p.rest = cs ++ tail := hp
  have hq := skipMany_rest_append hp
  have hfresh : (p.skipMany cs.length).fresh = false :=
    skipMany_fresh (.inr fun hnil => h.ne_nil (List.length_eq_zero_iff.1 hnil))
  have hcontent : (Lexer.inside outer out p allowed s x).content =
      .ok (.inside outer (.scalar true (String.ofList cs) :: out) (p.skipMany cs.length) false
        (Lexer.savedInside out p allowed s) x) := by
    rw [h.content_eq hp, Lexer.plainScalar, Lexer.inside_saveKey, Lexer.inside_allowKey,
      Lexer.inside_closeColumns]
    simp only [Lexer.inside_inFlow, Lexer.inside_indent, Lexer.inside_pos]
    change (do let r ← readPlain (outer.length != 0) 0 p; _ : Except Problem Lexer) = _
    rw [h.readPlain_run htail hp]
    change Except.ok (Lexer.emit _ (if (p.skipMany cs.length).fresh = true then _ else _)) = _
    rw [hfresh]
    rfl
  refine Holds.leads_of_content (hp ▸ h.opens tail) hcontent htail.follows hq ?_
    (Lexer.savedInside_required hs) hx
  have := List.length_pos_of_ne_nil h.ne_nil
  change tail.length < p.rest.length
  rw [hp, List.length_append]
  omega

variable {enc : Char → List Char} (hspace : enc ' ' = [' '])
  (hshow : ∀ c ∈ cs, c ≠ ' ' → Shows false (enc c) c)

include hspace hshow

theorem content_quoted {p : Cursor} {s : KeySpot} {x : Lexer.Rest}
    (htail : ClosesQuoted outer tail) (hp : p.rest = quoted false enc cs ++ tail) :
    (Lexer.inside outer out p allowed s x).content =
      .ok (.inside outer (.scalar false (String.ofList cs) :: out)
        (p.skipMany (quoted false enc cs).length) false (Lexer.savedInside out p allowed s)
        ⟨x.mappingStarted, p.index + (quoted false enc cs).length⟩) := by
  have hlength : (quoted false enc cs).length = (cs.flatMap enc).length + 2 := by
    simp [quoted]
  have hq := skipMany_rest_append hp
  rw [quoted, List.cons_append, List.append_assoc, List.singleton_append] at hp
  have hcontent : (Lexer.inside outer out p allowed s x).content =
      (Lexer.inside outer out p allowed s x).quotedScalar false := by
    rw [Lexer.content]
    simp only [Lexer.inside_pos, head_of_rest hp]
    rfl
  have hread : readQuoted false (outer.length != 0) (-1) p =
      .ok (String.ofList cs, p.skipMany (quoted false enc cs).length) := by
    rw [hlength]
    exact readQuoted_eq hspace hshow hp htail.ne_quote (by omega) fun q hq _ =>
      ⟨htail.follows.finishLine hq, htail.mayFollow hq _⟩
  rw [hcontent, Lexer.quotedScalar, Lexer.inside_saveKey, Lexer.inside_allowKey]
  simp only [Lexer.inside_inFlow, Lexer.inside_pos, Lexer.inside_indent, hread, bind, Except.bind,
    Lexer.inside_moveTo, Lexer.inside_skipToToken htail.follows hq, skipMany_index]
  rfl

/-- **A quoted text before what closes it.** -/
theorem leads_quoted (htail : Closes outer tail) :
    Leads ⟨outer, out, mapped, allowed, quoted false enc cs ++ tail⟩
      ⟨outer, .scalar false (String.ofList cs) :: out, mapped, false, tail⟩ := by
  rintro m ⟨p, s, x, rfl, hs, hx, hp⟩
  have hp : p.rest = quoted false enc cs ++ tail := hp
  refine Holds.leads_of_content (hp ▸ opens_quoted)
    (content_quoted hspace hshow (.node htail) hp) htail.follows (skipMany_rest_append hp) ?_
    (Lexer.savedInside_required hs) hx
  change tail.length < p.rest.length
  rw [hp, List.length_append, quoted, List.length_cons]
  omega

omit hspace hshow

theorem content_colon {s₀ s : KeySpot} {x : Lexer.Rest} {t : Token} {q : Cursor}
    (htail : Opens tail) (hq : q.rest = ':' :: tail) (hs : s.possible = true)
    (hnumber : s.number = out.length) (hx : x.mappingStarted = true) (hadj : x.adjacent = q.index) :
    (Lexer.inside (s₀ :: outer) (t :: out) q false s x).content =
      .ok (.inside (s₀ :: outer) (.value :: t :: .key :: out) q.skip false
        { s with possible := false } x) := by
  have hcontent : (Lexer.inside (s₀ :: outer) (t :: out) q false s x).content =
      (Lexer.inside (s₀ :: outer) (t :: out) q false s x).value := by
    have hmark : (isWordEnd (q.peek 1) || ((Lexer.inside (s₀ :: outer) (t :: out) q false s
        x).inFlow && (isFlowMark (q.peek 1) || q.index == x.adjacent))) = true := by
      simp [hadj]
    rw [Lexer.content]
    simp only [Lexer.inside_pos, head_of_rest hq]
    exact if_pos hmark
  have hafter : Lexer.afterColon q.skip = .ok q.skip := by
    obtain ⟨c, rest, rfl, hc, -⟩ := htail.start
    rw [Lexer.afterColon, head_of_rest (skip_rest_of_rest hq), if_neg (by simpa using hc.ne_tab)]
  set m := (((Lexer.inside (s₀ :: outer) (t :: out) q.skip false s x).emitAt s.number
    .key).openBlock s.column (some s.number) .blockMappingStart).openColumn with hm
  have hkey : (Lexer.inside (s₀ :: outer) (t :: out) q.skip false s x).emitAt s.number .key =
      Lexer.inside (s₀ :: outer) (t :: .key :: out) q.skip false s x := by
    simp [Lexer.emitAt, Lexer.inside, hnumber]
  rw [hkey, Lexer.openBlock, if_pos (by simp), Lexer.inside_openColumn] at hm
  have himplicit : ((Lexer.inside (s₀ :: outer) (t :: out) q false s x).inFlow &&
      !(Lexer.inside (s₀ :: outer) (t :: out) q false s x).mappingStarted) = false := by
    simp [Lexer.inside, hx]
  rw [hcontent, Lexer.value]
  simp only [Lexer.inside_pos, hafter, bind, Except.bind, Lexer.inside_spot, hs, if_true,
    himplicit, Bool.false_and, Bool.false_eq_true, if_false]
  change Except.ok (Lexer.emit .value (Lexer.allowKey false
    (Lexer.setSpot { m.spot with possible := false } m))) = _
  rw [hm]
  rfl

include hspace hshow

/-- **A key with its colon.** -/
theorem leads_key {s₀ : KeySpot} (htail : Opens tail) :
    Leads ⟨s₀ :: outer, out, true, true, quoted false enc cs ++ ':' :: tail⟩
      ⟨s₀ :: outer, .value :: .scalar false (String.ofList cs) :: .key :: out, true, false,
        tail⟩ := by
  rintro m ⟨p, s, x, rfl, hs, hx, hp⟩
  have hp : p.rest = quoted false enc cs ++ ':' :: tail := hp
  have hstarted : x.mappingStarted = true := hx rfl
  set q := p.skipMany (quoted false enc cs).length with hqdef
  have hq : q.rest = ':' :: tail := skipMany_rest_append hp
  have hcolon : Opens q.rest := hq ▸ opens_mark (by simp [flowMarks]) tail
  set t : KeySpot := ⟨true, false, out.length, p.index, p.line, p.column⟩ with ht
  set y : Lexer.Rest := ⟨x.mappingStarted, p.index + (quoted false enc cs).length⟩ with hy
  have hscalar : (Lexer.inside (s₀ :: outer) out p true s x).content =
      .ok (.inside (s₀ :: outer) (.scalar false (String.ofList cs) :: out) q false t y) :=
    content_quoted hspace hshow (.colon s₀ outer tail) hp
  have hvalue : (Lexer.inside (s₀ :: outer) (.scalar false (String.ofList cs) :: out) q false t
      y).content = .ok (.inside (s₀ :: outer)
        (.value :: .scalar false (String.ofList cs) :: .key :: out) q.skip false
        { t with possible := false } y) :=
    content_colon htail hq rfl rfl hstarted (by rw [hqdef, skipMany_index])
  rw [← Lexer.inside_token (hp ▸ opens_quoted)] at hscalar
  have hsettle : (Lexer.inside (s₀ :: outer) (.scalar false (String.ofList cs) :: out) q false t
      y).settle = .ok (.inside (s₀ :: outer) (.scalar false (String.ofList cs) :: out) q false t
        y) :=
    Lexer.inside_settle (hcolon.follows (Int.le_refl 0)) rfl rfl
  obtain ⟨m', hm', hholds⟩ := Holds.leads_of_content
    (a := ⟨s₀ :: outer, .scalar false (String.ofList cs) :: out, true, false, ':' :: tail⟩)
    (b := ⟨s₀ :: outer, .value :: .scalar false (String.ofList cs) :: .key :: out, true, false,
      tail⟩) hcolon hvalue (htail.follows (Int.le_refl 0)) (skip_rest_of_rest hq) (by
        rw [hq]
        exact Nat.lt_succ_self _) rfl fun _ => hstarted
  refine ⟨m', .step hscalar rfl hsettle ?_ hm', hholds⟩
  change q.rest.length < p.rest.length
  rw [hq, hp, List.length_append, quoted, List.length_cons, List.length_cons]
  simp

omit hspace hshow

/-! ## Brackets and commas -/

section Brackets

variable {mapping : Bool} {p : Cursor} {s s₀ : KeySpot} {x : Lexer.Rest} {rest : List Char}

theorem opens_openingMark (mapping : Bool) (rest : List Char) :
    Opens (openingMark mapping :: rest) := by
  cases mapping <;> exact opens_mark (by simp [flowMarks, openingMark]) rest

theorem opens_closingMark (mapping : Bool) (rest : List Char) :
    Opens (closingMark mapping :: rest) := by
  cases mapping <;> exact opens_mark (by simp [flowMarks, closingMark]) rest

theorem content_openingMark (hp : p.rest = openingMark mapping :: rest) :
    (Lexer.inside outer out p allowed s x).content =
      (Lexer.inside outer out p allowed s x).flowStart (openingToken mapping) := by
  rw [Lexer.content]
  simp only [Lexer.inside_pos, head_of_rest hp]
  cases mapping <;> rfl

/-- **An opening bracket in no more than the greatest number of brackets less one.** -/
theorem content_opening (hp : p.rest = openingMark mapping :: rest) (hrest : Opens rest)
    (hdepth : outer.length < Lexer.flowLimit) :
    (Lexer.inside outer out p allowed s x).content =
      .ok (.inside (Lexer.savedInside out p allowed s :: outer) (openingToken mapping :: out) p.skip
        true KeySpot.none ⟨mapping || x.mappingStarted, x.adjacent⟩) := by
  have hline : p.skip.finishLine = .ok p.skip :=
    (hrest.follows (Int.le_refl 0)).finishLine (skip_rest_of_rest hp)
  rw [content_openingMark hp, Lexer.flowStart, Lexer.inside_saveKey, Lexer.inside_openColumn,
    Lexer.inside_flow]
  refine (if_neg (Nat.ne_of_lt hdepth)).trans ?_
  cases mapping <;>
  · change (do let q ← p.skip.finishLine; _ : Except Problem Lexer) = _
    rw [hline]
    rfl

/-- **No bracket may be opened in the greatest number of brackets.** -/
theorem content_too_deep (hp : p.rest = openingMark mapping :: rest)
    (hdepth : outer.length = Lexer.flowLimit) :
    (Lexer.inside outer out p allowed s x).content = .error .tooDeep := by
  rw [content_openingMark hp, Lexer.flowStart, Lexer.inside_saveKey, Lexer.inside_openColumn,
    Lexer.inside_flow]
  exact if_pos hdepth

/-- **An opening bracket**, where a key may start: the place of its tokens is remembered. -/
theorem Holds.opening {m : Lexer}
    (h : Holds ⟨outer, out, mapped, allowed, openingMark mapping :: rest⟩ m) (hrest : Opens rest)
    (hdepth : outer.length < Lexer.flowLimit) :
    ∃ t m', t.required = false ∧ (allowed = true → t.possible = true ∧ t.number = out.length) ∧
      Lexer.Leads m m' ∧
      Holds ⟨t :: outer, openingToken mapping :: out, mapping || mapped, true, rest⟩ m' := by
  obtain ⟨p, s, x, rfl, hs, hx, hp⟩ := h
  have hp : p.rest = openingMark mapping :: rest := hp
  obtain ⟨m', hm', hholds⟩ := Holds.leads_of_content
    (a := ⟨outer, out, mapped, allowed, openingMark mapping :: rest⟩)
    (b := ⟨Lexer.savedInside out p allowed s :: outer, openingToken mapping :: out,
      mapping || mapped, true, rest⟩) (hp ▸ opens_openingMark mapping rest)
    (content_opening hp hrest hdepth) (hrest.follows (Int.le_refl 0)) (skip_rest_of_rest hp)
    (by rw [hp]; exact Nat.lt_succ_self _) rfl
    (fun h => Bool.or_eq_true_iff.2 ((Bool.or_eq_true_iff.1 h).imp_right hx))
  refine ⟨_, m', Lexer.savedInside_required hs, ?_, hm', hholds⟩
  rintro rfl
  exact ⟨rfl, rfl⟩

/-- **A closing bracket.** -/
theorem leads_closing {inner : Bool} (hinner : mapped = true → inner = true)
    (hs₀ : s₀.required = false) (htail : Closes outer tail) :
    Leads ⟨s₀ :: outer, out, inner, allowed, closingMark mapping :: tail⟩
      ⟨outer, closingToken mapping :: out, mapped, false, tail⟩ := by
  rintro m ⟨p, s, x, rfl, hs, hx, hp⟩
  have hp : p.rest = closingMark mapping :: tail := hp
  have hline : p.skip.finishLine = .ok p.skip := htail.follows.finishLine (skip_rest_of_rest hp)
  have hcontent : (Lexer.inside (s₀ :: outer) out p allowed s x).content =
      .ok (.inside outer (closingToken mapping :: out) p.skip false s₀
        ⟨x.mappingStarted, if outer.length != 0 then p.skip.index else x.adjacent⟩) := by
    have hend : (Lexer.inside (s₀ :: outer) out p allowed s x).content =
        (Lexer.inside (s₀ :: outer) out p allowed s x).flowEnd (closingToken mapping) := by
      rw [Lexer.content]
      simp only [Lexer.inside_pos, head_of_rest hp]
      cases mapping <;> rfl
    rw [hend, Lexer.flowEnd, Lexer.inside_dropKey hs]
    change (do let q ← p.skip.finishLine; _ : Except Problem Lexer) = _
    rw [hline]
    cases outer <;> rfl
  exact Holds.leads_of_content (hp ▸ opens_closingMark mapping tail) hcontent htail.follows
    (skip_rest_of_rest hp) (by rw [hp]; exact Nat.lt_succ_self _) hs₀ fun h => hx (hinner h)

/-- **A comma.** -/
theorem leads_comma (hrest : Opens rest) :
    Leads ⟨s₀ :: outer, out, mapped, allowed, ',' :: rest⟩
      ⟨s₀ :: outer, .flowEntry :: out, mapped, true, rest⟩ := by
  rintro m ⟨p, s, x, rfl, hs, hx, hp⟩
  have hp : p.rest = ',' :: rest := hp
  have hline : p.skip.finishLine = .ok p.skip :=
    (hrest.follows (Int.le_refl 0)).finishLine (skip_rest_of_rest hp)
  have hcontent : (Lexer.inside (s₀ :: outer) out p allowed s x).content =
      .ok (.inside (s₀ :: outer) (.flowEntry :: out) p.skip true
        { s with possible := false } x) := by
    have hentry : (Lexer.inside (s₀ :: outer) out p allowed s x).content =
        (Lexer.inside (s₀ :: outer) out p allowed s x).flowEntry := by
      rw [Lexer.content]
      simp only [Lexer.inside_pos, head_of_rest hp]
      rfl
    rw [hentry, Lexer.flowEntry, Lexer.inside_dropKey hs]
    change (do let q ← p.skip.finishLine; _ : Except Problem Lexer) = _
    rw [hline]
    rfl
  have hcomma : Opens (',' :: rest) := opens_mark (by simp [flowMarks]) rest
  exact Holds.leads_of_content (hp ▸ hcomma) hcontent (hrest.follows (Int.le_refl 0))
    (skip_rest_of_rest hp) (by rw [hp]; exact Nat.lt_succ_self _) hs hx

end Brackets

/-! ## The whole text -/

/-- The place at the start of a text. -/
def start (cs : List Char) : FlowPlace := ⟨[], [.streamStart], false, true, cs⟩

theorem exists_start (hclean : ∀ c ∈ cs, isEndMark c = false) (hopens : Opens cs) :
    ∃ m, (Lexer.start cs).settle = .ok m ∧ (start cs).Holds m ∧ m.pos.rest = cs := by
  have hrest := Cursor.start_rest hclean
  have hsettle : (Lexer.inside [] [.streamStart] (Cursor.start cs) true KeySpot.none
      ⟨false, 0⟩).settle = .ok (.inside [] [.streamStart] (Cursor.start cs) true
        (Lexer.fadedInside [] (Cursor.start cs) KeySpot.none) ⟨false, 0⟩) :=
    Lexer.inside_settle (hopens.follows (Int.le_refl 0)) hrest rfl
  exact ⟨_, hsettle, ⟨_, _, _, rfl, rfl, fun h => h, hrest⟩, hrest⟩

theorem Holds.token_end {m : Lexer} (h : Holds ⟨[], out, mapped, allowed, []⟩ m) :
    ∃ o, m.token = .ok o ∧ o.finished = true ∧ o.out = .streamEnd :: out := by
  obtain ⟨p, s, x, rfl, hs, -, hp⟩ := h
  have hfinish : (Lexer.inside [] out p allowed s x).token =
      (Lexer.inside [] out p allowed s x).finish := by
    rw [Lexer.token]
    simp only [Lexer.inside_pos, head_of_nil hp]
    rfl
  have hkeys : (Lexer.inside [] out p allowed s x).keys.any
      (fun (s : KeySpot) => s.possible && s.required) = false := by
    simp [hs]
  refine ⟨{ Lexer.inside [] (.streamEnd :: out) p false { s with possible := false } x with
    finished := true }, ?_, rfl, rfl⟩
  rw [hfinish, Lexer.finish, hkeys, if_neg (by simp)]
  rfl

end FlowPlace

/-- **The tokens of a text, from where it leads.** -/
theorem tokenize_of_flow {cs : List Char} {out : List Token} {mapped allowed : Bool}
    (hclean : ∀ c ∈ cs, isEndMark c = false) (hopens : Opens cs)
    (h : (FlowPlace.start cs).Leads ⟨[], out, mapped, allowed, []⟩) :
    tokenize (String.ofList cs) = ⟨(.streamEnd :: out).reverse, none⟩ := by
  obtain ⟨m, hsettle, hm, hrest⟩ := FlowPlace.exists_start hclean hopens
  obtain ⟨n, hleads, hn⟩ := h m hm
  obtain ⟨o, htoken, hfinished, hout⟩ := hn.token_end
  rw [tokenize, String.toList_ofList, ← hout]
  exact Lexer.lexFrom_of_leads rfl hsettle hleads htoken hfinished (by rw [hrest]; omega)

end Yaml

end BatchRun

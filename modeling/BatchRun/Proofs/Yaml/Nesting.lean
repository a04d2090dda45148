import BatchRun.Proofs.Yaml.Marks

/-!
# Texts inside texts

A text is taken with all that may stand around it: the blocks that are open, the column, and what
follows.

* `Reads`: a node that is deeper than the block around it;
* `Runs`: items or members, the first of which stands at its column, `Runs.append`;
* `Runs.nested`: items or members as a node in a block of their own;
* **`Reads.item`**, **`KeyText.member`**, `KeyText.member_below`, `KeyText.member_nested`,
  `Reads.long_member`: an item and a member from their parts.
-/

namespace BatchRun

namespace Yaml

variable {outer : Int} {col : Nat} {allowed : Bool} {text more : List Char} {ts us : List Token}

/-- A text, at a column of a block that is less deep, is read as the tokens of a node. -/
structure Reads (outer : Int) (col : Nat) (allowed : Bool) (text : List Char) (ts : List Token) :
    Prop where
  clean : ∀ c ∈ text, isEndMark c = false
  opens : ∀ rest, Opens (text ++ rest)
  leads : ∀ {f : Frame} {column body}, f.indent = outer → f.EndsAt column body →
    Place.Leads ⟨f, text ++ (spaces column ++ body), col, allowed⟩ (f.behind ts column body)

/-- A text at a column is read as the tokens of some items or members, the block of which is
started if need be. -/
structure Runs (start : Token) (col : Nat) (text : List Char) (ts : List Token) : Prop where
  clean : ∀ c ∈ text, isEndMark c = false
  opens : ∀ rest, Opens (text ++ rest)
  leads : ∀ {f : Frame} {column body}, f.Admits col → Follows col column body →
    Place.Leads ⟨f, text ++ (spaces column ++ body), col, true⟩
      ((f.enter col start).behind ts column body)

theorem isEndMark_spaces (n : Nat) : ∀ c ∈ spaces n, isEndMark c = false := by
  intro c hc
  rw [List.eq_of_mem_replicate hc]
  rfl

namespace Frame

variable {f : Frame} {column : Nat} {body : List Char}

theorem Admits.behind (h : f.Admits col) (t : Token) (hle : col ≤ column) :
    (f.enter col t).behind ts column body =
      ⟨⟨col, (f.enter col t).outer, false, ts.reverse ++ (f.enter col t).out⟩, body, column,
        true⟩ := by
  rw [Frame.behind, h.enter_indent, Frame.closeFrom_of_le (by omega)]

theorem enter_self {t : Token} {g : List Int} {out : List Token} :
    (⟨col, g, false, out⟩ : Frame).enter col t = ⟨col, g, false, out⟩ :=
  if_neg (Int.lt_irrefl _)

theorem endsAt_of_follows (hindent : f.indent = col) (h : Follows col column body) :
    f.EndsAt column body := by
  refine ⟨by rwa [hindent], .inl ?_⟩
  rw [hindent]
  cases h with
  | stop => exact Int.natCast_nonneg col
  | token _ le _ => exact le

end Frame

/-- **Two runs at the same column are one.** -/
theorem Runs.append {start : Token} (h : Runs start col text ts) (h' : Runs start col more us) :
    Runs start col (text ++ spaces col ++ more) (ts ++ us) := by
  refine ⟨?_, fun rest => ?_, fun {f column body} hf hbody => ?_⟩
  · rw [List.forall_mem_append, List.forall_mem_append]
    exact ⟨⟨h.clean, isEndMark_spaces col⟩, h'.clean⟩
  · rw [List.append_assoc, List.append_assoc]
    exact h.opens _
  · have hfirst := h.leads hf ((h'.opens (spaces column ++ body)).follows (Int.le_refl col))
    rw [hf.behind start (Nat.le_refl col)] at hfirst
    have hadmits : Frame.Admits ⟨col, (f.enter col start).outer, false,
        ts.reverse ++ (f.enter col start).out⟩ col := ⟨Int.le_refl _, .inr hf.enter_outer⟩
    have hsecond := h'.leads hadmits hbody
    rw [Frame.enter_self] at hsecond
    have hend : (f.enter col start).behind (ts ++ us) column body =
        Frame.behind
          ⟨col, (f.enter col start).outer, false, ts.reverse ++ (f.enter col start).out⟩ us
          column body := by
      rw [Frame.behind, Frame.behind, hf.enter_indent, List.reverse_append, List.append_assoc]
    rw [hend, List.append_assoc, List.append_assoc]
    exact hfirst.trans hsecond

theorem Runs.nested {start : Token} (h : Runs start col text ts) (hdeep : outer < col)
    (hpos : 0 < col) :
    Reads outer col true text (start :: ts ++ [.blockEnd]) := by
  refine ⟨h.clean, h.opens, fun {f column body} hindent hend => ?_⟩
  subst hindent
  have hadmits : f.Admits col := ⟨f.least_le hdeep, .inl hdeep⟩
  have hbody : Follows col column body := hend.follows.mono (Int.le_of_lt hdeep)
  have hlt : ¬(col : Int) ≤ column := by
    cases hend.follows with
    | stop => omega
    | token _ le _ => omega
  have hleads := h.leads hadmits hbody
  have hclosed : (f.enter col start).behind ts column body =
      f.behind (start :: ts ++ [.blockEnd]) column body := by
    rw [Frame.enter_of_lt hdeep, Frame.behind, Frame.behind, Frame.closeFrom, if_neg hlt]
    simp
  rwa [← hclosed]

/-- **An item.** -/
theorem Reads.item (h : Reads col (col + 2) true text ts) :
    Runs .blockSequenceStart col ('-' :: ' ' :: text) (.blockEntry :: ts) := by
  refine ⟨?_, fun rest => ?_, fun {f column body} hf hbody => ?_⟩
  · rw [List.forall_mem_cons, List.forall_mem_cons]
    exact ⟨rfl, rfl, h.clean⟩
  · exact .of_next ⟨by decide, by decide⟩ (by decide) (by decide) _
  · have hdash := Place.leads_dash hf (h.opens (spaces column ++ body))
    refine hdash.trans ?_
    have hitem := h.leads (f := ⟨col, (f.enter col .blockSequenceStart).outer,
      isFlowMark ((text ++ (spaces column ++ body)).headD endMark),
      .blockEntry :: (f.enter col .blockSequenceStart).out⟩) rfl (Frame.endsAt_of_follows rfl hbody)
    have hend : (f.enter col .blockSequenceStart).behind (.blockEntry :: ts) column body =
        Frame.behind ⟨col, (f.enter col .blockSequenceStart).outer,
          isFlowMark ((text ++ (spaces column ++ body)).headD endMark),
          .blockEntry :: (f.enter col .blockSequenceStart).out⟩ ts column body := by
      rw [Frame.behind, Frame.behind, hf.enter_indent]
      simp
    rwa [hend]

/-! ## Members -/

section Members

variable {key : List Char} {t : Token}

theorem Frame.enterMember_behind (f : Frame) (t : Token) (column : Nat) (body : List Char) :
    (f.enterMember col t).behind ts column body =
      (f.enter col .blockMappingStart).behind ([.key, t, .value] ++ ts) column body := by
  simp [Frame.behind, Frame.enterMember, Frame.hang, Frame.emits]

theorem Frame.Admits.enterMember_endsAt {f : Frame} (h : f.Admits col) (t : Token) {column : Nat}
    {body : List Char} (hbody : Follows col column body) :
    (f.enterMember col t).EndsAt column body :=
  Frame.endsAt_of_follows h.enter_indent hbody

theorem clean_below {key text : List Char} (hkey : ∀ c ∈ key, isEndMark c = false)
    (htext : ∀ c ∈ text, isEndMark c = false) (column : Nat) :
    ∀ c ∈ key ++ ':' :: '\n' :: (spaces column ++ text), isEndMark c = false := by
  rw [List.forall_mem_append, List.forall_mem_cons, List.forall_mem_cons, List.forall_mem_append]
  exact ⟨hkey, rfl, rfl, isEndMark_spaces _, htext⟩

variable (hkey : KeyText key t) (hclean : ∀ c ∈ key, isEndMark c = false)

include hkey hclean

/-- **A member whose value is on the line of its key.** -/
theorem KeyText.member (h : Reads col (col + key.length + 2) false text ts) :
    Runs .blockMappingStart col (key ++ ':' :: ' ' :: text) ([.key, t, .value] ++ ts) := by
  refine ⟨?_, fun rest => ?_, fun {f column body} hf hbody => ?_⟩
  · rw [List.forall_mem_append, List.forall_mem_cons, List.forall_mem_cons]
    exact ⟨hclean, rfl, rfl, h.clean⟩
  · rw [List.append_assoc]
    exact hkey.opens _ (.colon rfl _)
  · rw [← f.enterMember_behind t, List.append_assoc]
    exact (hkey.leads_space hf (h.opens _)).trans
      (h.leads hf.enter_indent (hf.enterMember_endsAt t hbody))

theorem KeyText.member_nested (h : Reads col (col + 2) true text ts) :
    Runs .blockMappingStart col (key ++ ':' :: '\n' :: (spaces (col + 2) ++ text))
      ([.key, t, .value] ++ ts) := by
  refine ⟨clean_below hclean h.clean _, fun rest => ?_, fun {f column body} hf hbody => ?_⟩
  · rw [List.append_assoc]
    exact hkey.opens _ (.colon rfl _)
  · have hnext := hkey.leads_newline hf (h.opens (spaces column ++ body)) (col + 2)
    rw [Frame.close_of_least_le (by rw [hf.enterMember_least]; push_cast; omega)] at hnext
    rw [← f.enterMember_behind t, List.append_assoc, List.cons_append, List.cons_append,
      List.append_assoc]
    exact hnext.trans (h.leads hf.enter_indent (hf.enterMember_endsAt t hbody))

/-- A member whose value is an array, the items of which are no deeper than the key. -/
theorem KeyText.member_below (h : Runs .blockSequenceStart col text ts) :
    Runs .blockMappingStart col (key ++ ':' :: '\n' :: (spaces col ++ text))
      ([.key, t, .value] ++ ts) := by
  refine ⟨clean_below hclean h.clean _, fun rest => ?_, fun {f column body} hf hbody => ?_⟩
  · rw [List.append_assoc]
    exact hkey.opens _ (.colon rfl _)
  · set g : Frame := ⟨col, (f.enter col .blockMappingStart).outer, false, (f.enterMember col t).out⟩
      with hg
    have hindent : (f.enterMember col t).indent = col := hf.enter_indent
    have hfall : (f.enterMember col t).close col = g := by
      rw [Frame.close_eq fun _ => Int.le_of_eq hindent.symm, hindent,
        Frame.closeFrom_of_le (Int.le_refl _)]
      rfl
    have hend : g.behind ts column body = (f.enterMember col t).behind ts column body := by
      rw [Frame.behind, Frame.behind, hindent]
      rfl
    have hnext := hkey.leads_newline hf (h.opens (spaces column ++ body)) col
    rw [hfall] at hnext
    have hitems := h.leads (f := g) ⟨Int.le_refl _, .inr hf.enter_outer⟩ hbody
    rw [Frame.enter_self] at hitems
    rw [← f.enterMember_behind t, List.append_assoc, List.cons_append, List.cons_append,
      List.append_assoc, ← hend]
    exact hnext.trans hitems

omit hkey hclean

/-- **A member whose key is behind a question mark.** -/
theorem Reads.long_member (hk : Reads col (col + 2) true key [t])
    (h : Reads col (col + 2) true text ts) :
    Runs .blockMappingStart col ('?' :: ' ' :: (key ++ (spaces col ++ ':' :: ' ' :: text)))
      ([.key, t, .value] ++ ts) := by
  have hcolon (rest : List Char) : Opens (':' :: ' ' :: rest) :=
    .of_next ⟨by decide, by decide⟩ (by decide) (by decide) _
  refine ⟨?_, fun rest => ?_, fun {f column body} hf hbody => ?_⟩
  · simp only [List.forall_mem_cons, List.forall_mem_append]
    exact ⟨rfl, rfl, hk.clean, isEndMark_spaces _, rfl, rfl, h.clean⟩
  · exact .of_next ⟨by decide, by decide⟩ (by decide) (by decide) _
  · set e := f.enter col .blockMappingStart with he
    set g : Frame := ⟨col, e.outer, false, t :: .key :: e.out⟩ with hg
    have hquestion := Place.leads_question hf (hk.opens (spaces col ++ ':' :: ' ' :: (text ++
      (spaces column ++ body))))
    have hfollows : Follows col col (':' :: ' ' :: (text ++ (spaces column ++ body))) :=
      (hcolon _).follows (Int.le_refl col)
    have hread := hk.leads (f := e.emit .key) hf.enter_indent
      (Frame.endsAt_of_follows hf.enter_indent hfollows)
    have hplace : (e.emit .key).behind [t] col (':' :: ' ' :: (text ++ (spaces column ++ body))) =
        ⟨g, ':' :: ' ' :: (text ++ (spaces column ++ body)), col, true⟩ := by
      rw [Frame.behind, show (e.emit .key).indent = col from hf.enter_indent,
        Frame.closeFrom_of_le (Int.le_refl _)]
      rfl
    have hvalue :=
      Place.leads_colon (f := g) rfl hf.enter_outer rfl (h.opens (spaces column ++ body))
    have hframe : g.hang.emit .value = f.enterMember col t := by
      rw [Frame.enterMember, hf.enter_eq]
      rfl
    rw [hframe] at hvalue
    rw [hplace] at hread
    have hend := h.leads (f := f.enterMember col t) hf.enter_indent (hf.enterMember_endsAt t hbody)
    rw [← f.enterMember_behind t]
    simp only [List.cons_append, List.append_assoc]
    exact ((hquestion.trans hread).trans hvalue).trans hend

end Members

end Yaml

end BatchRun

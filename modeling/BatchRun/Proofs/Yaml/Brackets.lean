import BatchRun.Proofs.Yaml.Flow

/-!
# Nested brackets

A bracket inside the greatest number of brackets is refused, so a piece of text is followed to its
end or to such a bracket, whichever its depth says.

* `Lexer.Overflows`: steps lead to a bracket too many;
* `FlowPlace.Runs`: what becomes of a piece of text, by its depth;
* `Piece`: a text with its tokens and its depth, `Piece.IsNode`, `Piece.IsPart`: what is read where
  a node or a part of a collection may stand;
* **`Piece.IsNode.bracketed`**: parts between brackets with commas between them are a node;
* **`Piece.IsNode.tokenize`**, `Piece.tokenize_deep`: the tokens of a whole text, and what is
  left of them when it is too deep.
-/

namespace BatchRun

namespace Yaml

/-- Steps lead to a bracket too many, at which the spots of keys are still there. -/
def Lexer.Overflows (outer : List KeySpot) (m : Lexer) : Prop :=
  ∃ n, Lexer.Leads m n ∧ n.token = .error .tooDeep ∧ ∀ s ∈ outer, s ∈ n.keys

theorem Lexer.Leads.overflows {outer : List KeySpot} {m n : Lexer} (h : Lexer.Leads m n)
    (hn : n.Overflows outer) : m.Overflows outer := by
  obtain ⟨o, ho, htoken, hkeys⟩ := hn
  exact ⟨o, h.trans ho, htoken, hkeys⟩

theorem Lexer.Overflows.mono {outer inner : List KeySpot} {m : Lexer} (h : m.Overflows inner)
    (hsub : ∀ s ∈ outer, s ∈ inner) : m.Overflows outer := by
  obtain ⟨n, hn, htoken, hkeys⟩ := h
  exact ⟨n, hn, htoken, fun s hs => hkeys s (hsub s hs)⟩

/-! ## Runs -/

namespace FlowPlace

/-- What stands between two places opens `depth` brackets at once: if there is room for them, the
first place leads to the second one, and else to a bracket too many. -/
structure Runs (depth : Nat) (a b : FlowPlace) : Prop where
  leads : a.outer.length + depth ≤ Lexer.flowLimit → Leads a b
  overflows : a.outer.length ≤ Lexer.flowLimit → Lexer.flowLimit < a.outer.length + depth →
    ∀ m, a.Holds m → m.Overflows a.outer

variable {a b c : FlowPlace} {d e : Nat}

theorem Leads.runs (h : Leads a b) : Runs 0 a b :=
  ⟨fun _ => h, fun hle hlt => absurd hlt (by omega)⟩

theorem Runs.trans (h : Runs d a b) (h' : Runs e b c) (houter : a.outer = b.outer) :
    Runs (max d e) a c := by
  refine ⟨fun hfits => (h.leads (by omega)).trans (h'.leads (by rw [← houter]; omega)),
    fun hle hdeep m hm => ?_⟩
  by_cases hd : a.outer.length + d ≤ Lexer.flowLimit
  · obtain ⟨n, hn, hb⟩ := h.leads hd m hm
    rw [houter] at hle hdeep hd ⊢
    exact hn.overflows (h'.overflows hle (by omega) n hb)
  · exact h.overflows hle (by omega) m hm

end FlowPlace

/-! ## Pieces -/

/-- A piece of text with the tokens it is read as and how many brackets are open at once in it. -/
structure Piece where
  text : List Char
  tokens : List Token
  depth : Nat

namespace Piece

/-- A piece is read where a node may stand. -/
structure IsNode (a : Piece) : Prop where
  clean : ∀ c ∈ a.text, isEndMark c = false
  opens : ∀ tail, Opens (a.text ++ tail)
  runs : ∀ {outer out mapped allowed tail}, Closes outer tail →
    FlowPlace.Runs a.depth ⟨outer, out, mapped, allowed, a.text ++ tail⟩
      ⟨outer, a.tokens.reverse ++ out, mapped, false, tail⟩

/-- A piece is read where a part of a sequence or of a mapping may stand. -/
structure IsPart (mapping : Bool) (a : Piece) : Prop where
  clean : ∀ c ∈ a.text, isEndMark c = false
  opens : ∀ tail, Opens (a.text ++ tail)
  runs : ∀ {s outer out mapped tail}, (mapping = true → mapped = true) →
    Closes (s :: outer) tail →
    FlowPlace.Runs a.depth ⟨s :: outer, out, mapped, true, a.text ++ tail⟩
      ⟨s :: outer, a.tokens.reverse ++ out, mapped, false, tail⟩

theorem IsNode.isPart {a : Piece} (h : a.IsNode) : a.IsPart false :=
  ⟨h.clean, h.opens, fun _ htail => h.runs htail⟩

/-- A text without quotes. -/
def word (cs : List Char) : Piece := ⟨cs, [.scalar true (String.ofList cs)], 0⟩

theorem IsNode.word {cs : List Char} (h : FlowWord cs) : (word cs).IsNode :=
  ⟨fun c hc => (FlowWord.startsToken (h.chars c hc)).isEndMark, h.opens,
    fun htail => (FlowPlace.leads_word h htail).runs⟩

section Quoted

variable (enc : Char → List Char) (cs : List Char)

/-- A text between quotes. -/
def quoted (enc : Char → List Char) (cs : List Char) : Piece :=
  ⟨Yaml.quoted false enc cs, [.scalar false (String.ofList cs)], 0⟩

/-- A key between quotes with a value. -/
def member (enc : Char → List Char) (cs : List Char) (value : Piece) : Piece :=
  ⟨Yaml.quoted false enc cs ++ ':' :: value.text,
    .key :: .scalar false (String.ofList cs) :: .value :: value.tokens, value.depth⟩

variable {enc cs} (hclean : ∀ c ∈ cs, ∀ d ∈ enc c, isEndMark d = false)

include hclean

theorem clean_quoted : ∀ d ∈ Yaml.quoted false enc cs, isEndMark d = false := by
  rw [Yaml.quoted, List.forall_mem_cons, List.forall_mem_append, List.forall_mem_singleton]
  refine ⟨rfl, fun d hd => ?_, rfl⟩
  obtain ⟨c, hc, hd⟩ := List.mem_flatMap.1 hd
  exact hclean c hc d hd

variable (hspace : enc ' ' = [' ']) (hshow : ∀ c ∈ cs, c ≠ ' ' → Shows false (enc c) c)

include hspace hshow

theorem IsNode.quoted : (quoted enc cs).IsNode :=
  ⟨clean_quoted hclean, fun _ => opens_quoted,
    fun htail => (FlowPlace.leads_quoted hspace hshow htail).runs⟩

theorem IsNode.member {value : Piece} (h : value.IsNode) :
    (member enc cs value).IsPart true := by
  refine ⟨?_, fun tail => ?_, fun {s outer out mapped tail} hmapped htail => ?_⟩
  · rw [Piece.member, List.forall_mem_append, List.forall_mem_cons]
    exact ⟨clean_quoted hclean, rfl, h.clean⟩
  · rw [Piece.member, List.append_assoc]
    exact opens_quoted
  · obtain rfl : mapped = true := hmapped rfl
    have hkey : FlowPlace.Leads
        ⟨s :: outer, out, true, true, Yaml.quoted false enc cs ++ ':' :: (value.text ++ tail)⟩
        ⟨s :: outer, .value :: .scalar false (String.ofList cs) :: .key :: out, true, false,
          value.text ++ tail⟩ := FlowPlace.leads_key hspace hshow (h.opens tail)
    have hrun := hkey.runs.trans (h.runs htail) rfl
    rw [Nat.zero_max] at hrun
    simpa [Piece.member] using hrun

end Quoted

/-! ## Collections -/

/-- Parts with commas between them. -/
def listed (parts : List Piece) : Piece :=
  ⟨[','].intercalate (parts.map text), [.flowEntry].intercalate (parts.map tokens),
    (parts.map depth).foldr max 0⟩

/-- Parts between brackets. -/
def bracketed (mapping : Bool) (parts : List Piece) : Piece :=
  ⟨openingMark mapping :: ((listed parts).text ++ [closingMark mapping]),
    openingToken mapping :: ((listed parts).tokens ++ [closingToken mapping]),
    (listed parts).depth + 1⟩

variable {mapping : Bool} {parts : List Piece}

theorem listed_cons (a b : Piece) (parts : List Piece) : listed (a :: b :: parts) =
    ⟨a.text ++ ',' :: (listed (b :: parts)).text,
      a.tokens ++ .flowEntry :: (listed (b :: parts)).tokens,
      max a.depth (listed (b :: parts)).depth⟩ := by
  simp [listed, List.intercalate_cons_cons]

theorem listed_singleton (a : Piece) : listed [a] = a := by
  simp [listed]

theorem clean_listed (h : ∀ a ∈ parts, a.IsPart mapping) :
    ∀ c ∈ (listed parts).text, isEndMark c = false := by
  induction parts with
  | nil => exact fun _ hc => absurd hc List.not_mem_nil
  | cons a parts ih =>
    obtain ⟨ha, hparts⟩ := List.forall_mem_cons.1 h
    cases parts with
    | nil => rw [listed_singleton]; exact ha.clean
    | cons b rest =>
      rw [listed_cons, List.forall_mem_append, List.forall_mem_cons]
      exact ⟨ha.clean, rfl, ih hparts⟩

theorem opens_listed (h : ∀ a ∈ parts, a.IsPart mapping) (tail : List Char) :
    Opens ((listed parts).text ++ closingMark mapping :: tail) := by
  match parts, h with
  | [], _ => exact FlowPlace.opens_closingMark mapping tail
  | [a], h =>
    rw [listed_singleton]
    exact (h a List.mem_cons_self).opens _
  | a :: b :: rest, h =>
    rw [listed_cons, List.append_assoc]
    exact (h a List.mem_cons_self).opens _

/-- **Parts with commas between them.** -/
theorem runs_listed (h : ∀ a ∈ parts, a.IsPart mapping) {s : KeySpot} {outer : List KeySpot}
    {out : List Token} {mapped : Bool} (hmapped : mapping = true → mapped = true)
    (tail : List Char) :
    FlowPlace.Runs (listed parts).depth
      ⟨s :: outer, out, mapped, true, (listed parts).text ++ closingMark mapping :: tail⟩
      ⟨s :: outer, (listed parts).tokens.reverse ++ out, mapped, parts.isEmpty,
        closingMark mapping :: tail⟩ := by
  have hclosing : Closes (s :: outer) (closingMark mapping :: tail) :=
    .mark (by cases mapping <;> simp [closingMark]) s outer tail
  induction parts generalizing out with
  | nil => exact (FlowPlace.Leads.refl _).runs
  | cons a parts ih =>
    obtain ⟨ha, hparts⟩ := List.forall_mem_cons.1 h
    cases parts with
    | nil =>
      rw [listed_singleton]
      exact ha.runs hmapped hclosing
    | cons b rest =>
      have hcomma : FlowPlace.Leads
          ⟨s :: outer, a.tokens.reverse ++ out, mapped, false,
            ',' :: ((listed (b :: rest)).text ++ closingMark mapping :: tail)⟩
          ⟨s :: outer, .flowEntry :: (a.tokens.reverse ++ out), mapped, true,
            (listed (b :: rest)).text ++ closingMark mapping :: tail⟩ :=
        FlowPlace.leads_comma (opens_listed hparts tail)
      have hfirst := (ha.runs hmapped (.mark (.inl rfl) s outer _)).trans hcomma.runs rfl
      have hrun := hfirst.trans (ih hparts) rfl
      rw [Nat.max_zero] at hrun
      simpa [listed_cons] using hrun

theorem bracketed_text (tail : List Char) : (bracketed mapping parts).text ++ tail =
    openingMark mapping :: ((listed parts).text ++ closingMark mapping :: tail) := by
  simp [bracketed]

section Opened

variable (h : ∀ a ∈ parts, a.IsPart mapping)

include h

/-- Behind an opening bracket the parts are followed to the closing one, or to a bracket too
many. -/
theorem exists_opened {outer : List KeySpot} {out : List Token} {mapped allowed : Bool}
    {tail : List Char} {m : Lexer}
    (hm : FlowPlace.Holds ⟨outer, out, mapped, allowed, (bracketed mapping parts).text ++ tail⟩ m)
    (hroom : outer.length < Lexer.flowLimit) :
    ∃ t n, t.required = false ∧ (allowed = true → t.possible = true ∧ t.number = out.length) ∧
      Lexer.Leads m n ∧
      (outer.length + (listed parts).depth < Lexer.flowLimit → ∃ o, Lexer.Leads n o ∧
        FlowPlace.Holds ⟨t :: outer, (listed parts).tokens.reverse ++ openingToken mapping :: out,
          mapping || mapped, parts.isEmpty, closingMark mapping :: tail⟩ o) ∧
      (Lexer.flowLimit ≤ outer.length + (listed parts).depth → n.Overflows (t :: outer)) := by
  rw [bracketed_text] at hm
  obtain ⟨t, n, ht, hspot, hn, hopened⟩ := hm.opening (opens_listed h tail) hroom
  have hruns : FlowPlace.Runs (listed parts).depth
      ⟨t :: outer, openingToken mapping :: out, mapping || mapped, true,
        (listed parts).text ++ closingMark mapping :: tail⟩
      ⟨t :: outer, (listed parts).tokens.reverse ++ openingToken mapping :: out,
        mapping || mapped, parts.isEmpty, closingMark mapping :: tail⟩ :=
    runs_listed h (fun hm => by rw [hm]; rfl) tail
  have hlength : (t :: outer).length = outer.length + 1 := List.length_cons
  refine ⟨t, n, ht, hspot, hn, fun hfits => hruns.leads ?_ n hopened,
    fun hdeep => hruns.overflows ?_ ?_ n hopened⟩
  · simp only [hlength]
    omega
  · simp only [hlength]
    omega
  · simp only [hlength]
    omega

/-- **Parts between brackets with commas between them are a node.** -/
theorem IsNode.bracketed : (bracketed mapping parts).IsNode := by
  have hopens (tail : List Char) : Opens ((Piece.bracketed mapping parts).text ++ tail) :=
    FlowPlace.opens_openingMark mapping _
  have hclean : ∀ c ∈ (Piece.bracketed mapping parts).text, isEndMark c = false := by
    rw [Piece.bracketed, List.forall_mem_cons, List.forall_mem_append, List.forall_mem_singleton]
    exact ⟨by cases mapping <;> rfl, clean_listed h, by cases mapping <;> rfl⟩
  refine ⟨hclean, hopens, fun {outer out mapped allowed tail} htail =>
    ⟨fun hfits m hm => ?_, fun hle hdeep m hm => ?_⟩⟩
  · have hroom : outer.length + ((listed parts).depth + 1) ≤ Lexer.flowLimit := hfits
    obtain ⟨t, n, ht, -, hn, hparts, -⟩ := exists_opened h hm (by omega)
    obtain ⟨o, ho, hlast⟩ := hparts (by omega)
    have hclosing : FlowPlace.Leads
        ⟨t :: outer, (listed parts).tokens.reverse ++ openingToken mapping :: out,
          mapping || mapped, parts.isEmpty, closingMark mapping :: tail⟩
        ⟨outer, closingToken mapping :: ((listed parts).tokens.reverse ++
          openingToken mapping :: out), mapped, false, tail⟩ :=
      FlowPlace.leads_closing (fun hm => by rw [hm, Bool.or_true]) ht htail
    obtain ⟨q, hq, hclosed⟩ := hclosing o hlast
    refine ⟨q, (hn.trans ho).trans hq, ?_⟩
    simpa [Piece.bracketed] using hclosed
  · have hle : outer.length ≤ Lexer.flowLimit := hle
    have hdeep : Lexer.flowLimit < outer.length + ((listed parts).depth + 1) := hdeep
    by_cases hlimit : outer.length = Lexer.flowLimit
    · obtain ⟨p, s, x, rfl, hs, -, hp⟩ := hm
      refine ⟨_, .refl _, ?_, fun s hs => List.mem_cons_of_mem _ hs⟩
      rw [Lexer.inside_token (hp ▸ hopens tail)]
      exact FlowPlace.content_too_deep (hp.trans (bracketed_text tail)) hlimit
    · obtain ⟨t, n, -, -, hn, -, hparts⟩ := exists_opened h hm (by omega)
      exact hn.overflows ((hparts (by omega)).mono fun s hs => List.mem_cons_of_mem t hs)

end Opened

/-! ## Whole texts -/

/-- **The tokens of a text that is not too deep.** -/
theorem IsNode.tokenize {a : Piece} (h : a.IsNode) (hfits : a.depth ≤ Lexer.flowLimit) :
    tokenize (String.ofList a.text) = ⟨.streamStart :: (a.tokens ++ [.streamEnd]), none⟩ := by
  have hopens := h.opens []
  have hruns : FlowPlace.Runs a.depth ⟨[], [.streamStart], false, true, a.text ++ []⟩
      ⟨[], a.tokens.reverse ++ [.streamStart], false, false, []⟩ := h.runs .stop
  rw [List.append_nil] at hopens hruns
  have hleads := hruns.leads (by
    rw [List.length_nil, Nat.zero_add]
    exact hfits)
  rw [tokenize_of_flow h.clean hopens hleads]
  simp

/-- **Of the tokens of a text that is too deep no more than the first one counts.** -/
theorem tokenize_deep (h : ∀ a ∈ parts, a.IsPart mapping)
    (hdeep : Lexer.flowLimit < (bracketed mapping parts).depth) :
    ∃ ts, Yaml.tokenize (String.ofList (bracketed mapping parts).text) = ⟨ts, some .tooDeep⟩ ∧
      ts.length ≤ 1 := by
  have hdeep : Lexer.flowLimit < (listed parts).depth + 1 := hdeep
  have hopens : Opens (bracketed mapping parts).text := FlowPlace.opens_openingMark mapping _
  obtain ⟨m, hsettle, hm, hrest⟩ := FlowPlace.exists_start (IsNode.bracketed h).clean hopens
  rw [FlowPlace.start, ← List.append_nil (bracketed mapping parts).text] at hm
  obtain ⟨t, n, -, hspot, hn, -, hparts⟩ := exists_opened h hm (by decide)
  obtain ⟨hpossible, hnumber⟩ := hspot rfl
  -- the spot of the first bracket stays undecided, so that nothing behind its place counts
  obtain ⟨o, ho, htoken, hkeys⟩ := hparts (by
    rw [List.length_nil]
    omega)
  have hfuel : m.pos.rest.length < (bracketed mapping parts).text.length + 2 := by
    rw [hrest]
    omega
  obtain ⟨ts, hts, hlength⟩ := Lexer.lexFrom_of_error rfl hsettle (hn.trans ho) htoken
    (hkeys t List.mem_cons_self) hpossible hfuel
  rw [hnumber] at hlength
  refine ⟨ts, ?_, hlength⟩
  rw [Yaml.tokenize, String.toList_ofList]
  exact hts

end Piece

end Yaml

end BatchRun

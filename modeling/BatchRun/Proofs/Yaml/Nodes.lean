import BatchRun.Proofs.Yaml.Tokens
import BatchRun.Yaml.Reader

/-!
# The nodes of a written document

The tokens of a document are put together again. A key that occurs twice among the nodes is noted
on the way; no key does in a document all of whose strings are read back.

* `rootNode`: what the tokens of a document stand for;
* `Parser.ahead` and the lemmas on single tokens: the steps of the grammar that are needed;
* **`parseDocuments_toYaml`**: the nodes of the text of a document.
-/

namespace BatchRun

namespace Yaml

/-! ## Nodes of a document -/

/-- What a string is read as. -/
def scalarNode (indent : Nat) (s : String) : Node :=
  resolve (styleOf s = .plain) none (readBack indent s)

def flatNode (indent : Nat) : Document → Node
  | .null => .null
  | .bool b => .bool b
  | .int i => .int i
  | .float x => .real (x.render layout)
  | .string s => scalarNode indent s
  | .array _ => .array []
  | .object _ => .mapping []

mutual

/-- What is read behind a dash or the colon of a long key. -/
def nodeOf (inner : Nat) : Document → Node
  | .array (x :: xs) => .array (itemNodes inner (x :: xs))
  | .object (m :: ms) => .mapping (entryNodes inner (m :: ms))
  | d => flatNode inner d

/-- What is read behind the colon of a short key. -/
def valueNode (indent : Nat) : Document → Node
  | .array (x :: xs) => .array (itemNodes indent (x :: xs))
  | .object (m :: ms) => .mapping (entryNodes (indent + 2) (m :: ms))
  | d => flatNode (indent + 2) d

def itemNodes (indent : Nat) : List Document → List Node
  | [] => []
  | x :: rest => nodeOf (indent + 2) x :: itemNodes indent rest

def entryNodes (indent : Nat) : List (String × Document) → List (Node × Node)
  | [] => []
  | (key, value) :: rest =>
    (scalarNode (indent + 2) key,
      if isSimpleKey key then valueNode indent value else nodeOf (indent + 2) value) ::
      entryNodes indent rest

end

/-- What a whole text is read as. -/
def rootNode : Document → Node
  | .array (x :: xs) => nodeOf 0 (.array (x :: xs))
  | .object (m :: ms) => nodeOf 0 (.object (m :: ms))
  | d => flatNode 2 d

namespace Node

theorem keyText_of_same {a b : Node} (h : a.same b = true) : a.keyText = b.keyText := by
  cases a <;> cases b <;> simp_all [same, keyText]

theorem resolvePlain_isInvalid (s : String) : (resolvePlain s).isInvalid = false := by
  rw [resolvePlain]
  split
  · rfl
  · split
    · rfl
    · split
      · rfl
      · split
        · rfl
        · split
          · rfl
          · split <;> rfl

theorem scalarNode_isInvalid (indent : Nat) (s : String) :
    (scalarNode indent s).isInvalid = false := by
  rw [scalarNode, resolve]
  split
  · rfl
  · exact resolvePlain_isInvalid _

end Node

/-! ## Steps of the grammar -/

namespace Parser

/-- The state with other tokens ahead and another key noted. -/
def ahead (ts : List Token) (duplicate : Option Node) (s : Parser) : Parser :=
  { s with tokens := ts, duplicate := duplicate }

variable {s : Parser} {fuel : Nat} {t : Token} {ts : List Token} {dup : Option Node}

theorem node_scalar (block indentless isPlain : Bool) (text : String) :
    (s.ahead (.scalar isPlain text :: ts) dup).node (fuel + 1) block indentless =
      .ok (resolve isPlain none text, s.ahead ts dup) := by
  rw [node]
  rfl

theorem node_brackets (block indentless mapping : Bool) :
    (s.ahead (openingToken mapping :: closingToken mapping :: ts) dup).node (fuel + 2) block
      indentless = .ok (if mapping then .mapping [] else .array [], s.ahead ts dup) := by
  cases mapping <;>
  · rw [node]
    rfl

theorem bind_pair (m : Except Problem (Node × Parser)) :
    (do let r ← m; .ok (r.1, r.2)) = m := by
  cases m <;> rfl

theorem node_blockSequence (indentless : Bool) :
    (s.ahead (.blockSequenceStart :: ts) dup).node (fuel + 1) true indentless =
      (s.ahead ts dup).blockItems fuel [] := by
  rw [node]
  exact bind_pair _

theorem node_blockMapping (indentless : Bool) :
    (s.ahead (.blockMappingStart :: ts) dup).node (fuel + 1) true indentless =
      (s.ahead ts dup).blockEntries fuel .empty := by
  rw [node]
  exact bind_pair _

theorem node_indentless :
    (s.ahead (.blockEntry :: ts) dup).node (fuel + 1) true true =
      (s.ahead (.blockEntry :: ts) dup).indentlessItems fuel [] := by
  rw [node]
  exact bind_pair _

/-- A token that starts a node, other than an item without a block of its own. -/
def startsNode : Token → Bool
  | .scalar _ _ | .flowSequenceStart | .flowMappingStart | .blockSequenceStart
  | .blockMappingStart => true
  | _ => false

theorem blockItems_end (seen : List Node) :
    (s.ahead (.blockEnd :: ts) dup).blockItems (fuel + 1) seen =
      .ok (.array seen.reverse, s.ahead ts dup) := by
  rw [blockItems]
  rfl

theorem blockItems_entry (ht : startsNode t = true) (seen : List Node) :
    (s.ahead (.blockEntry :: t :: ts) dup).blockItems (fuel + 1) seen =
      (do let r ← (s.ahead (t :: ts) dup).node fuel true false
          r.2.blockItems fuel (r.1 :: seen)) := by
  rw [blockItems]
  cases t <;> first | rfl | cases ht

theorem indentlessItems_end (ht : t ≠ .blockEntry) (seen : List Node) :
    (s.ahead (t :: ts) dup).indentlessItems (fuel + 1) seen =
      .ok (.array seen.reverse, s.ahead (t :: ts) dup) := by
  rw [indentlessItems]
  cases t <;> first | rfl | exact absurd rfl ht

theorem indentlessItems_entry (ht : startsNode t = true) (seen : List Node) :
    (s.ahead (.blockEntry :: t :: ts) dup).indentlessItems (fuel + 1) seen =
      (do let r ← (s.ahead (t :: ts) dup).node fuel true false
          r.2.indentlessItems fuel (r.1 :: seen)) := by
  rw [indentlessItems]
  cases t <;> first | rfl | cases ht

theorem blockPart_node (ht : startsNode t = true ∨ t = .blockEntry) :
    (s.ahead (t :: ts) dup).blockPart (fuel + 1) = (s.ahead (t :: ts) dup).node fuel true true := by
  rw [blockPart]
  cases t <;> first | rfl | (obtain h | h := ht <;> cases h)

theorem blockEntries_end (es : Entries) :
    (s.ahead (.blockEnd :: ts) dup).blockEntries (fuel + 1) es = .ok (es.node, s.ahead ts dup) := by
  rw [blockEntries]
  rfl

theorem blockEntries_key (es : Entries) :
    (s.ahead (.key :: ts) dup).blockEntries (fuel + 1) es =
      (do let r ← (s.ahead ts dup).blockPart fuel
          let es := es.add r.1 r.2
          es.2.blockValue fuel es.1) := by
  rw [blockEntries]
  rfl

theorem blockValue_value (es : Entries) :
    (s.ahead (.value :: ts) dup).blockValue (fuel + 1) es =
      (do let r ← (s.ahead ts dup).blockPart fuel
          let es := es.add r.1 r.2
          es.2.blockEntries fuel es.1) := by
  rw [blockValue]
  rfl

theorem documents_end (fuel : Nat) (s : Parser) (implicit : Bool) (seen : List Node) :
    (s.ahead [.streamEnd] dup).documents (fuel + 2) implicit seen =
      .ok (seen.reverse, s.ahead [.streamEnd] dup) := by
  rw [documents, skipEndMarkers]
  rfl

/-- The state before the first token. -/
def initial : Parser := ⟨[], none, [], [], 1, [], none⟩

theorem documents_node {root : Node} {dup' : Option Node} (ht : startsNode t = true)
    (hnode : (initial.ahead (t :: ts) dup).node (fuel + 2) true false =
      .ok (root, initial.ahead [.streamEnd] dup')) :
    (initial.ahead (t :: ts) dup).documents (fuel + 3) true [] =
      .ok ([root], initial.ahead [.streamEnd] dup') := by
  have hroot : (initial.ahead (t :: ts) dup).documents (fuel + 3) true [] = (do
      let r ← (initial.ahead (t :: ts) dup).node (fuel + 2) true false
      let t ← r.2.peek
      let s := { r.2 with tags := [] }
      if t == .documentEnd then documents (fuel + 2) true [r.1] s.skip
      else if isDirective t then .error .directiveWithoutEnd
      else documents (fuel + 2) false [r.1] s) := by
    rw [documents, skipEndMarkers]
    cases t <;> first | rfl | cases ht
  rw [hroot, hnode]
  exact documents_end fuel initial false [root]

theorem parseDocuments_of_tokenize {text : String}
    (h : tokenize text = ⟨.streamStart :: ts, none⟩) :
    parseDocuments text = (do
      let r ← (initial.ahead ts none).documents (8 * ts.length + 16) true []
      match r.2.duplicate with
      | some key => .error (.duplicateKey key.render)
      | none => .ok r.1) := by
  rw [parseDocuments, h]
  rfl

/-- **The nodes of a text whose tokens are put together to one root.** -/
theorem parseDocuments_of_node {text : String} {root : Node} {dup : Option Node}
    (htokenize : tokenize text = ⟨.streamStart :: (ts ++ [.streamEnd]), none⟩)
    (hstarts : ∃ t rest, ts = t :: rest ∧ startsNode t = true) :
    (initial.ahead (ts ++ [.streamEnd]) none).node (8 * ts.length + 23) true false =
      .ok (root, initial.ahead [.streamEnd] dup) →
    parseDocuments text = match dup with
      | some key => .error (.duplicateKey key.render)
      | none => .ok [root] := by
  intro hnode
  have hdocuments : (initial.ahead (ts ++ [.streamEnd]) none).documents
      (8 * (ts ++ [Token.streamEnd]).length + 16) true [] =
      .ok ([root], initial.ahead [.streamEnd] dup) := by
    obtain ⟨t, rest, rfl, ht⟩ := hstarts
    rw [List.length_append]
    rw [List.cons_append] at hnode ⊢
    exact documents_node ht hnode
  rw [parseDocuments_of_tokenize htokenize, hdocuments]
  cases dup <;> rfl

end Parser

/-! ## Runs of the grammar -/

theorem exists_flatTokens (k : Nat) (d : Document) :
    ∃ t ts, flatTokens k d = t :: ts ∧ Parser.startsNode t = true := by
  cases d <;> exact ⟨_, _, rfl, rfl⟩

theorem exists_nodeTokens (inner : Nat) (d : Document) :
    ∃ t ts, nodeTokens inner d = t :: ts ∧ Parser.startsNode t = true := by
  rcases d with _ | _ | _ | _ | _ | (_ | _) | (_ | _) <;> exact ⟨_, _, rfl, rfl⟩

theorem exists_valueTokens (indent : Nat) (d : Document) :
    ∃ t ts, valueTokens indent d = t :: ts ∧ (Parser.startsNode t = true ∨ t = .blockEntry) := by
  rcases d with _ | _ | _ | _ | _ | (_ | _) | (_ | _)
  case array.cons => exact ⟨_, _, rfl, .inr rfl⟩
  all_goals exact ⟨_, _, rfl, .inl rfl⟩

/-- The tokens of a document are put together to its node, behind which the rest is ahead; no key of
a faithful document is noted. -/
structure Parses (d : Document) : Prop where
  node : ∀ (inner fuel : Nat) (indentless : Bool) (s : Parser) (dup : Option Node)
    (rest : List Token), 2 * (nodeTokens inner d).length ≤ fuel →
    ∃ dup', (s.ahead (nodeTokens inner d ++ rest) dup).node fuel true indentless =
      .ok (nodeOf inner d, s.ahead rest dup') ∧ (d.Faithful → dup' = dup)
  value : ∀ (indent fuel : Nat) (s : Parser) (dup : Option Node) (t : Token) (rest : List Token),
    t ≠ .blockEntry → 2 * (valueTokens indent d).length + 2 ≤ fuel →
    ∃ dup', (s.ahead (valueTokens indent d ++ t :: rest) dup).node fuel true true =
      .ok (valueNode indent d, s.ahead (t :: rest) dup') ∧ (d.Faithful → dup' = dup)

theorem IsFlat.node_run {d : Document} (h : IsFlat d) (hd : d.Writable) {k fuel : Nat}
    {indentless : Bool} {s : Parser} {dup : Option Node} {rest : List Token} (hfuel : 2 ≤ fuel) :
    (s.ahead (flatTokens k d ++ rest) dup).node fuel true indentless =
      .ok (flatNode k d, s.ahead rest dup) := by
  obtain ⟨fuel, rfl⟩ : ∃ n, fuel = n + 2 := ⟨fuel - 2, by omega⟩
  cases h with
  | null => exact Parser.node_scalar true indentless true "null"
  | bool b =>
    cases b with
    | true => exact Parser.node_scalar true indentless true "true"
    | false => exact Parser.node_scalar true indentless true "false"
  | int i =>
    cases hd with
    | int fits =>
      refine (Parser.node_scalar true indentless true _).trans ?_
      rw [flatNode, ← resolvePlain_intChars fits]
      rfl
  | float x =>
    refine (Parser.node_scalar true indentless true _).trans ?_
    rw [flatNode, ← resolvePlain_render (show layout.plus.toList = [] ∨ _ from .inl rfl) x]
    rfl
  | string => exact Parser.node_scalar true indentless _ _
  | array => exact Parser.node_brackets true indentless false
  | object => exact Parser.node_brackets true indentless true

theorem IsFlat.parses {d : Document} (h : IsFlat d) (hd : d.Writable) : Parses d := by
  have hpos (k : Nat) : 0 < (flatTokens k d).length := by
    obtain ⟨t, ts, heq, -⟩ := exists_flatTokens k d
    rw [heq]
    exact Nat.succ_pos _
  have hnode (k fuel : Nat) (indentless : Bool) (s : Parser) (dup : Option Node)
      (rest : List Token) (hfuel : 2 * (flatTokens k d).length ≤ fuel) :
      ∃ dup', (s.ahead (flatTokens k d ++ rest) dup).node fuel true indentless =
        .ok (flatNode k d, s.ahead rest dup') ∧ (d.Faithful → dup' = dup) :=
    ⟨dup, h.node_run hd (by have := hpos k; omega), fun _ => rfl⟩
  have hvalue (indent fuel : Nat) (s : Parser) (dup : Option Node) (t : Token) (rest : List Token)
      (hfuel : 2 * (flatTokens (indent + 2) d).length + 2 ≤ fuel) :=
    hnode (indent + 2) fuel true s dup (t :: rest) (by omega)
  cases h <;> exact ⟨hnode, fun indent fuel s dup t rest _ => hvalue indent fuel s dup t rest⟩

variable {fuel : Nat} (s : Parser) (dup : Option Node) (rest : List Token)

/-- Both loops over items put the nodes together, whatever token ends them: the loop takes a step at
each item, and at its end gives what it has seen. -/
theorem items_run {items : Nat → List Node → Parser → Except Problem (Node × Parser)} {e : Token}
    {after : List Token}
    (hend : ∀ (dup : Option Node) (fuel : Nat) (seen : List Node),
      items (fuel + 1) seen (s.ahead (e :: rest) dup) =
        .ok (.array seen.reverse, s.ahead after dup))
    (hentry : ∀ {t : Token}, Parser.startsNode t = true →
      ∀ (ts : List Token) (dup : Option Node) (fuel : Nat) (seen : List Node),
        items (fuel + 1) seen (s.ahead (.blockEntry :: t :: ts) dup) =
          (do let r ← (s.ahead (t :: ts) dup).node fuel true false
              items fuel (r.1 :: seen) r.2))
    {xs : List Document} (h : ∀ x ∈ xs, Parses x) {indent : Nat}
    (hfuel : 2 * (itemTokens indent xs).length + 1 ≤ fuel) (seen : List Node) :
    ∃ dup', items fuel seen (s.ahead (itemTokens indent xs ++ e :: rest) dup) =
      .ok (.array (seen.reverse ++ itemNodes indent xs), s.ahead after dup') ∧
      ((∀ x ∈ xs, x.Faithful) → dup' = dup) := by
  induction xs generalizing fuel dup seen with
  | nil =>
    obtain ⟨fuel, rfl⟩ : ∃ n, fuel = n + 1 := ⟨fuel - 1, by omega⟩
    refine ⟨dup, ?_, fun _ => rfl⟩
    rw [itemNodes, List.append_nil]
    exact hend dup fuel seen
  | cons x xs ih =>
    obtain ⟨hx, hxs⟩ := List.forall_mem_cons.1 h
    obtain ⟨fuel, rfl⟩ : ∃ n, fuel = n + 1 := ⟨fuel - 1, by omega⟩
    rw [itemTokens, List.length_append, List.length_cons] at hfuel
    obtain ⟨dup₁, hnode, hdup₁⟩ := hx.node (indent + 2) fuel false s dup
      (itemTokens indent xs ++ e :: rest) (by omega)
    obtain ⟨dup₂, hitems, hdup₂⟩ := @ih fuel dup₁ hxs (by omega) (nodeOf (indent + 2) x :: seen)
    refine ⟨dup₂, ?_, fun hfaithful => ?_⟩
    · obtain ⟨t, ts, heq, ht⟩ := exists_nodeTokens (indent + 2) x
      rw [heq] at hnode
      have hstep : itemTokens indent (x :: xs) ++ e :: rest =
          .blockEntry :: t :: (ts ++ (itemTokens indent xs ++ e :: rest)) := by
        simp [itemTokens, heq]
      rw [hstep, hentry ht]
      rw [List.cons_append] at hnode
      simp only [hnode, bind, Except.bind, hitems]
      rw [itemNodes, List.reverse_cons, List.append_assoc]
      rfl
    · obtain ⟨hfx, hfxs⟩ := List.forall_mem_cons.1 hfaithful
      rw [hdup₂ hfxs, hdup₁ hfx]

theorem blockItems_run {xs : List Document} (h : ∀ x ∈ xs, Parses x) {indent : Nat}
    (hfuel : 2 * (itemTokens indent xs).length + 1 ≤ fuel) (seen : List Node) :
    ∃ dup', (s.ahead (itemTokens indent xs ++ .blockEnd :: rest) dup).blockItems fuel seen =
      .ok (.array (seen.reverse ++ itemNodes indent xs), s.ahead rest dup') ∧
      ((∀ x ∈ xs, x.Faithful) → dup' = dup) :=
  items_run s dup rest (fun _ _ => Parser.blockItems_end)
    (fun ht _ _ _ => Parser.blockItems_entry ht) h hfuel seen

theorem indentlessItems_run {xs : List Document} (h : ∀ x ∈ xs, Parses x) {indent : Nat} {e : Token}
    (he : e ≠ .blockEntry) (hfuel : 2 * (itemTokens indent xs).length + 1 ≤ fuel)
    (seen : List Node) :
    ∃ dup', (s.ahead (itemTokens indent xs ++ e :: rest) dup).indentlessItems fuel seen =
      .ok (.array (seen.reverse ++ itemNodes indent xs), s.ahead (e :: rest) dup') ∧
      ((∀ x ∈ xs, x.Faithful) → dup' = dup) :=
  items_run s dup rest (fun _ _ => Parser.indentlessItems_end he)
    (fun ht _ _ _ => Parser.indentlessItems_entry ht) h hfuel seen

/-! ### Members -/

theorem Entries_add (k v : Node) (done : List (Node × Node)) (hk : k.isInvalid = false) :
    ∃ dup', (⟨k, done⟩ : Parser.Entries).add v (s.ahead rest dup) =
      (⟨.invalid, (k, v) :: done⟩, s.ahead rest dup') ∧
      ((∀ e ∈ done, e.1.keyText ≠ k.keyText) → dup' = dup) := by
  have hadd : (⟨k, done⟩ : Parser.Entries).add v (s.ahead rest dup) = (⟨.invalid, (k, v) :: done⟩,
      if (done.any fun (e : Node × Node) => e.1.same k) && dup.isNone then s.ahead rest (some k)
      else s.ahead rest dup) := by
    rw [Parser.Entries.add, hk, if_neg (by simp)]
    rfl
  rw [hadd]
  split
  · next hknown =>
    refine ⟨some k, rfl, fun hnew => ?_⟩
    obtain ⟨e, he, hsame⟩ := List.any_eq_true.1 (Bool.and_eq_true_iff.1 hknown).1
    exact absurd (Node.keyText_of_same hsame) (hnew e he)
  · exact ⟨dup, rfl, fun _ => rfl⟩

theorem scalarNode_keyText {k : Nat} {key : String} (h : IsKeyReadBack key) :
    (scalarNode k key).keyText = .ok key := by
  cases hstyle : styleOf key with
  | plain => simpa [scalarNode, readBack, hstyle, resolve] using h.plain hstyle
  | singleQuoted =>
    simp [scalarNode, readBack, hstyle, resolve, Node.keyText, spread_of_unbroken (h.quoted hstyle)]
  | doubleQuoted => simp [scalarNode, readBack, hstyle, resolve, Node.keyText]
  | literal => simp [scalarNode, readBack, hstyle, resolve, Node.keyText]

theorem Parses.part {d : Document} (h : Parses d) {simple : Prop} [Decidable simple] {indent : Nat}
    {ts : List Token} {t : Token}
    (hts : ts = if simple then valueTokens indent d else nodeTokens (indent + 2) d)
    (ht : t ≠ .blockEntry) (hfuel : 2 * ts.length + 3 ≤ fuel) :
    ∃ dup', (s.ahead (ts ++ t :: rest) dup).blockPart fuel =
      .ok (if simple then valueNode indent d else nodeOf (indent + 2) d, s.ahead (t :: rest) dup') ∧
      (d.Faithful → dup' = dup) := by
  obtain ⟨fuel, rfl⟩ : ∃ n, fuel = n + 1 := ⟨fuel - 1, by omega⟩
  subst hts
  split at hfuel
  · next hsimple =>
    rw [if_pos hsimple, if_pos hsimple]
    have hvalue := h.value indent fuel s dup t rest ht (by omega)
    obtain ⟨e, es, heq, he⟩ := exists_valueTokens indent d
    rw [heq] at hvalue ⊢
    rwa [List.cons_append, Parser.blockPart_node he]
  · next hsimple =>
    rw [if_neg hsimple, if_neg hsimple]
    have hnode := h.node (indent + 2) fuel true s dup (t :: rest) (by omega)
    obtain ⟨e, es, heq, he⟩ := exists_nodeTokens (indent + 2) d
    rw [heq] at hnode ⊢
    rwa [List.cons_append, Parser.blockPart_node (.inl he)]

theorem blockEntries_member {p : String × Document} (h : Parses p.2) {indent : Nat} {t : Token}
    (ht : t ≠ .blockEntry) (hfuel : 2 * (memberTokens indent [p]).length + 1 ≤ fuel + 2)
    (done : List (Node × Node)) :
    ∃ dup', (s.ahead (memberTokens indent [p] ++ t :: rest) dup).blockEntries (fuel + 2)
        ⟨.invalid, done⟩ =
      (s.ahead (t :: rest) dup').blockEntries fuel
        ⟨.invalid, entryNodes indent [p] ++ done⟩ ∧
      (p.2.Faithful → (∀ e ∈ done, e.1.keyText ≠ (scalarNode (indent + 2) p.1).keyText) →
        dup' = dup) := by
  obtain ⟨key, d⟩ := p
  obtain ⟨part, hpart⟩ :
      ∃ ts, ts = if isSimpleKey key then valueTokens indent d else nodeTokens (indent + 2) d :=
    ⟨_, rfl⟩
  rw [memberTokens, memberTokens, ← hpart] at hfuel ⊢
  simp only [List.length_append, List.length_cons, List.length_nil] at hfuel
  obtain ⟨dup₁, hvalue, hdup₁⟩ := h.part s dup rest hpart ht
    (show 2 * part.length + 3 ≤ fuel by omega)
  obtain ⟨dup₂, hadd, hdup₂⟩ := Entries_add s dup₁ (t :: rest)
    (scalarNode (indent + 2) key)
    (if isSimpleKey key then valueNode indent d else nodeOf (indent + 2) d) done
    (Node.scalarNode_isInvalid _ _)
  refine ⟨dup₂, ?_, fun hfaithful hnew => ?_⟩
  · obtain ⟨fuel, rfl⟩ : ∃ n, fuel = n + 1 := ⟨fuel - 1, by omega⟩
    have hkey : (s.ahead (scalarToken (indent + 2) key :: .value :: (part ++ t :: rest))
        dup).blockPart (fuel + 2) =
        .ok (scalarNode (indent + 2) key, s.ahead (.value :: (part ++ t :: rest)) dup) :=
      (Parser.blockPart_node (.inl rfl)).trans (Parser.node_scalar true true _ _)
    have hlist : [.key, scalarToken (indent + 2) key, .value] ++ part ++ [] ++ t :: rest =
        .key :: scalarToken (indent + 2) key :: .value :: (part ++ t :: rest) := by simp
    rw [hlist, Parser.blockEntries_key, hkey]
    change (s.ahead (.value :: (part ++ t :: rest)) dup).blockValue (fuel + 2)
      ⟨scalarNode (indent + 2) key, done⟩ = _
    rw [Parser.blockValue_value, hvalue]
    simp only [bind, Except.bind]
    rw [hadd]
    rfl
  · rw [hdup₂ hnew, hdup₁ hfaithful]

theorem blockEntries_run {ms : Members} (h : ∀ p ∈ ms, Parses p.2) {indent : Nat}
    (hfuel : 2 * (memberTokens indent ms).length + 1 ≤ fuel) (done : List (Node × Node)) :
    ∃ dup', (s.ahead (memberTokens indent ms ++ .blockEnd :: rest) dup).blockEntries fuel
        ⟨.invalid, done⟩ =
      .ok (.mapping (done.reverse ++ entryNodes indent ms), s.ahead rest dup') ∧
      ((∀ p ∈ ms, IsKeyReadBack p.1) → (∀ p ∈ ms, p.2.Faithful) → ms.keys.Nodup →
        (∀ p ∈ ms, ∀ e ∈ done, e.1.keyText ≠ .ok p.1) → dup' = dup) := by
  induction ms generalizing fuel dup done with
  | nil =>
    obtain ⟨fuel, rfl⟩ : ∃ n, fuel = n + 1 := ⟨fuel - 1, by omega⟩
    refine ⟨dup, ?_, fun _ _ _ _ => rfl⟩
    rw [entryNodes, List.append_nil]
    exact Parser.blockEntries_end _
  | cons p ms ih =>
    obtain ⟨hp, hms⟩ := List.forall_mem_cons.1 h
    have htokens :
        memberTokens indent (p :: ms) = memberTokens indent [p] ++ memberTokens indent ms := by
      simp [memberTokens]
    have hentries :
        entryNodes indent (p :: ms) = entryNodes indent [p] ++ entryNodes indent ms := by
      simp [entryNodes]
    have hlong : 3 ≤ (memberTokens indent [p]).length := by simp [memberTokens]
    rw [htokens, List.length_append] at hfuel
    obtain ⟨fuel, rfl⟩ : ∃ n, fuel = n + 2 := ⟨fuel - 2, by omega⟩
    obtain ⟨t, ts, hnext, ht⟩ : ∃ t ts, memberTokens indent ms ++ .blockEnd :: rest = t :: ts ∧
        t ≠ .blockEntry := by
      cases ms with
      | nil => exact ⟨_, _, rfl, by decide⟩
      | cons m ms => exact ⟨.key, _, by simp [memberTokens]; rfl, by decide⟩
    obtain ⟨dup₁, hmember, hdup₁⟩ := blockEntries_member s dup ts hp ht
      (show 2 * (memberTokens indent [p]).length + 1 ≤ fuel + 2 by omega) done
    obtain ⟨dup₂, hrun, hdup₂⟩ := @ih fuel dup₁ hms (by omega) (entryNodes indent [p] ++ done)
    refine ⟨dup₂, ?_, fun hkeys hfaithful hnodup hnew => ?_⟩
    · rw [htokens, List.append_assoc, hnext, hmember, ← hnext, hrun, hentries]
      simp [entryNodes]
    · obtain ⟨hkey, hkeys⟩ := List.forall_mem_cons.1 hkeys
      obtain ⟨hd, hfaithful⟩ := List.forall_mem_cons.1 hfaithful
      obtain ⟨hnewp, hnew⟩ := List.forall_mem_cons.1 hnew
      rw [Members.keys_cons, List.nodup_cons] at hnodup
      have hold := hdup₁ hd (by rw [scalarNode_keyText hkey]; exact hnewp)
      refine (hdup₂ hkeys hfaithful hnodup.2 fun q hq e he => ?_).trans hold
      obtain he | he := List.mem_append.1 he
      · have hpe : e.1 = scalarNode (indent + 2) p.1 := by simp_all [entryNodes]
        rw [hpe, scalarNode_keyText hkey]
        intro heq
        exact hnodup.1 (Except.ok.inj heq ▸ Members.mem_keys_of_mem hq)
      · exact hnew q hq e he

/-! ### Documents -/

theorem Parses.of_writable {d : Document} (h : d.Writable) : Parses d := by
  induction h with
  | null => exact IsFlat.null.parses .null
  | bool b => exact (IsFlat.bool b).parses (.bool b)
  | int fits => exact (IsFlat.int _).parses (.int fits)
  | float x => exact (IsFlat.float x).parses (.float x)
  | string even => exact (IsFlat.string even).parses (.string even)
  | @array xs items ih =>
    cases xs with
    | nil => exact IsFlat.array.parses (.array items)
    | cons x xs =>
      have hitems (h : (Document.array (x :: xs)).Faithful) : ∀ y ∈ x :: xs, y.Faithful := by
        cases h with
        | array items => exact items
      constructor
      · intro inner fuel indentless s dup rest hfuel
        rw [nodeTokens, List.length_append, List.length_cons] at hfuel
        obtain ⟨fuel, rfl⟩ : ∃ n, fuel = n + 1 := ⟨fuel - 1, by omega⟩
        obtain ⟨dup', hrun, hdup⟩ := blockItems_run s dup rest ih
          (show 2 * (itemTokens inner (x :: xs)).length + 1 ≤ fuel by omega) []
        refine ⟨dup', ?_, fun h => hdup (hitems h)⟩
        rw [nodeTokens, List.cons_append, List.cons_append, List.append_assoc,
          Parser.node_blockSequence]
        exact hrun
      · intro indent fuel s dup t rest ht hfuel
        rw [valueTokens] at hfuel
        obtain ⟨fuel, rfl⟩ : ∃ n, fuel = n + 1 := ⟨fuel - 1, by omega⟩
        obtain ⟨dup', hrun, hdup⟩ := indentlessItems_run s dup rest ih ht
          (show 2 * (itemTokens indent (x :: xs)).length + 1 ≤ fuel by omega) []
        refine ⟨dup', ?_, fun h => hdup (hitems h)⟩
        rw [valueTokens]
        rw [itemTokens, List.cons_append] at hrun ⊢
        exact Parser.node_indentless.trans hrun
  | @object ms distinct keys values ih =>
    cases ms with
    | nil => exact IsFlat.object.parses (.object distinct keys values)
    | cons m ms =>
      have hnode (inner fuel : Nat) (indentless : Bool) (s : Parser) (dup : Option Node)
          (rest : List Token) (hfuel : 2 * (nodeTokens inner (.object (m :: ms))).length ≤ fuel) :
          ∃ dup', (s.ahead (nodeTokens inner (.object (m :: ms)) ++ rest) dup).node fuel true
              indentless = .ok (nodeOf inner (.object (m :: ms)), s.ahead rest dup') ∧
            ((Document.object (m :: ms)).Faithful → dup' = dup) := by
        rw [nodeTokens, List.length_append, List.length_cons] at hfuel
        obtain ⟨fuel, rfl⟩ : ∃ n, fuel = n + 1 := ⟨fuel - 1, by omega⟩
        obtain ⟨dup', hrun, hdup⟩ := blockEntries_run s dup rest ih
          (show 2 * (memberTokens inner (m :: ms)).length + 1 ≤ fuel by omega) []
        refine ⟨dup', ?_, fun h => ?_⟩
        · rw [nodeTokens, List.cons_append, List.cons_append, List.append_assoc,
            Parser.node_blockMapping]
          exact hrun
        · cases h with
          | object keys values =>
            exact hdup keys values distinct fun _ _ e he => absurd he List.not_mem_nil
      refine ⟨hnode, fun indent fuel s dup t rest _ hfuel => ?_⟩
      exact hnode (indent + 2) fuel true s dup (t :: rest)
        (Nat.le_trans (Nat.le_add_right _ 2) hfuel)

theorem exists_rootTokens (d : Document) :
    ∃ k, rootTokens d = nodeTokens k d ∧ rootNode d = nodeOf k d := by
  rcases d with _ | _ | _ | _ | _ | (_ | _) | (_ | _)
  case array.cons | object.cons => exact ⟨0, rfl, rfl⟩
  all_goals exact ⟨2, rfl, rfl⟩

/-- **The nodes of the text of a document.** No key is refused if the document is faithful. -/
theorem parseDocuments_toYaml {d : Document} (h : d.Writable) :
    ∃ duplicate : Option Node, (d.Faithful → duplicate = none) ∧
      parseDocuments d.toYaml = match duplicate with
        | some key => .error (.duplicateKey key.render)
        | none => .ok [rootNode d] := by
  obtain ⟨k, htokens, hroot⟩ := exists_rootTokens d
  obtain ⟨duplicate, hnode, hdup⟩ := (Parses.of_writable h).node k (8 * (rootTokens d).length + 23)
    false .initial none [.streamEnd] (by rw [htokens]; omega)
  refine ⟨duplicate, hdup, ?_⟩
  rw [← htokens, ← hroot] at hnode
  have hstarts : ∃ t ts, rootTokens d = t :: ts ∧ Parser.startsNode t = true :=
    htokens ▸ exists_nodeTokens k d
  exact Parser.parseDocuments_of_node (tokenize_toYaml h) hstarts hnode

end Yaml

end BatchRun

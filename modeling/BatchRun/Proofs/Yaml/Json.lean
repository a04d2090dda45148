import BatchRun.Manifest.File
import BatchRun.Proofs.Yaml.Compact
import BatchRun.Proofs.Yaml.RoundTrip

/-!
# Compact JSON is read as what it says

The tokens of a document in brackets are put together, and the nodes are made into the document
again. An integer that does not fit 64 bits with its sign is no longer an integer then, and text
with too many brackets open at once is not read at all.

* `Piece.Builds`, `Piece.BuildsEntry`: the tokens of a piece are put together to a node or an entry;
* `Piece.Builds.array`, `Piece.Builds.mapping`: parts between brackets;
* **`Piece.reads_ofDocument`**, **`load_toJson`**, `load_toJson_deep`: what is read;
* **`load_toJson_cases`**: the same for files, `misread_json`: what is not read back.
-/

namespace BatchRun

namespace Yaml

open Decimal

/-! ## Steps of the grammar -/

namespace Parser

variable {s : Parser} {fuel : Nat} {t : Token} {ts : List Token} {dup : Option Node}

theorem node_flowSequence (block indentless : Bool) :
    (s.ahead (.flowSequenceStart :: ts) dup).node (fuel + 1) block indentless =
      (s.ahead ts dup).flowItems fuel true [] := by
  rw [node]
  exact bind_pair _

theorem node_flowMapping (block indentless : Bool) :
    (s.ahead (.flowMappingStart :: ts) dup).node (fuel + 1) block indentless =
      (s.ahead ts dup).flowEntries fuel true .empty := by
  rw [node]
  exact bind_pair _

/-- What stands before a part of a collection: a comma, but nothing before the first part. -/
def comma (first : Bool) : List Token := if first then [] else [.flowEntry]

theorem flowItems_end (first : Bool) (seen : List Node) :
    (s.ahead (.flowSequenceEnd :: ts) dup).flowItems (fuel + 1) first seen =
      .ok (.array seen.reverse, s.ahead ts dup) := by
  rw [flowItems]
  rfl

theorem flowItems_item (ht : startsNode t = true) (first : Bool) (seen : List Node) :
    (s.ahead (comma first ++ t :: ts) dup).flowItems (fuel + 1) first seen =
      (do let r ← (s.ahead (t :: ts) dup).node fuel false false
          r.2.flowItems fuel false (r.1 :: seen)) := by
  rw [flowItems]
  cases first <;> cases t <;> first | rfl | cases ht

theorem flowEntries_end (first : Bool) (es : Entries) :
    (s.ahead (.flowMappingEnd :: ts) dup).flowEntries (fuel + 1) first es =
      .ok (es.node, s.ahead ts dup) := by
  rw [flowEntries]
  rfl

theorem flowEntries_key (first : Bool) (key : String) (done : List (Node × Node)) :
    (s.ahead (comma first ++ .key :: .scalar false key :: ts) dup).flowEntries (fuel + 2) first
      ⟨.invalid, done⟩ = (s.ahead ts dup).flowValue (fuel + 1) ⟨.string key, done⟩ := by
  have hkey : (s.ahead (.scalar false key :: ts) dup).node (fuel + 1) false false =
      .ok (.string key, s.ahead ts dup) := node_scalar false false false key
  have hstep : (s.ahead (comma first ++ .key :: .scalar false key :: ts) dup).flowEntries
      (fuel + 2) first ⟨.invalid, done⟩ =
      (do let r ← (s.ahead (.scalar false key :: ts) dup).node (fuel + 1) false false
          let es := Entries.add ⟨.invalid, done⟩ r.1 r.2
          es.2.flowValue (fuel + 1) es.1) := by
    rw [flowEntries]
    cases first <;> rfl
  rw [hstep, hkey]
  rfl

theorem flowValue_value (ht : startsNode t = true) (es : Entries) :
    (s.ahead (.value :: t :: ts) dup).flowValue (fuel + 1) es =
      (do let r ← (s.ahead (t :: ts) dup).node fuel false false
          let es := es.add r.1 r.2
          es.2.flowEntries fuel false es.1) := by
  rw [flowValue]
  cases t <;> first | rfl | cases ht

end Parser

/-! ## Runs of the grammar -/

namespace Piece

/-- The tokens of a piece are put together to a node, behind which the rest is ahead. -/
structure Builds (a : Piece) (n : Node) : Prop where
  starts : ∃ t ts, a.tokens = t :: ts ∧ Parser.startsNode t = true
  node : ∀ (fuel : Nat) (block indentless : Bool) (s : Parser) (dup : Option Node)
    (rest : List Token), 2 * a.tokens.length ≤ fuel →
    (s.ahead (a.tokens ++ rest) dup).node fuel block indentless = .ok (n, s.ahead rest dup)

/-- The tokens of a piece are a key and the node of its value. -/
inductive BuildsEntry (a : Piece) : Node × Node → Prop where
  | member {key : String} {value : Piece} {n : Node}
      (tokens : a.tokens = .key :: .scalar false key :: .value :: value.tokens)
      (builds : value.Builds n) : BuildsEntry a (.string key, n)

theorem Builds.scalar {a : Piece} {isPlain : Bool} {s : String}
    (h : a.tokens = [.scalar isPlain s]) : a.Builds (resolve isPlain none s) := by
  refine ⟨⟨_, _, h, rfl⟩, fun fuel block indentless p dup rest hfuel => ?_⟩
  rw [h] at hfuel ⊢
  obtain ⟨fuel, rfl⟩ : ∃ n, fuel = n + 1 := ⟨fuel - 1, by simp at hfuel; omega⟩
  exact Parser.node_scalar block indentless isPlain s

/-- The tokens of parts, with a comma before each but the first one. -/
def joined (first : Bool) : List Piece → List Token
  | [] => []
  | a :: parts => Parser.comma first ++ (a.tokens ++ joined false parts)

theorem listed_tokens (parts : List Piece) : (listed parts).tokens = joined true parts := by
  induction parts with
  | nil => rfl
  | cons a parts ih =>
    cases parts with
    | nil => simp [listed_singleton, joined, Parser.comma]
    | cons b parts =>
      rw [listed_cons, ih]
      simp [joined, Parser.comma]

variable {parts : List Piece} {fuel : Nat} (s : Parser) (dup : Option Node) (rest : List Token)

/-- **The items of a sequence.** -/
theorem flowItems_run {ns : List Node} (h : List.Forall₂ Builds parts ns) {first : Bool}
    (hfuel : 2 * (joined first parts).length + 1 ≤ fuel) (seen : List Node) :
    (s.ahead (joined first parts ++ .flowSequenceEnd :: rest) dup).flowItems fuel first seen =
      .ok (.array (seen.reverse ++ ns), s.ahead rest dup) := by
  induction h generalizing fuel first seen with
  | nil =>
    obtain ⟨fuel, rfl⟩ : ∃ n, fuel = n + 1 := ⟨fuel - 1, by omega⟩
    rw [List.append_nil]
    exact Parser.flowItems_end first seen
  | @cons a n parts ns ha _ ih =>
    obtain ⟨t, ts, htokens, ht⟩ := ha.starts
    rw [joined, List.length_append, List.length_append] at hfuel
    have hpos : 0 < a.tokens.length := by
      rw [htokens]
      exact Nat.succ_pos _
    obtain ⟨fuel, rfl⟩ : ∃ n, fuel = n + 1 := ⟨fuel - 1, by omega⟩
    have hnode := ha.node fuel false false s dup (joined false parts ++ .flowSequenceEnd :: rest)
      (by omega)
    rw [htokens, List.cons_append] at hnode
    rw [joined, List.append_assoc, List.append_assoc, htokens, List.cons_append,
      Parser.flowItems_item ht, hnode]
    change (s.ahead (joined false parts ++ .flowSequenceEnd :: rest) dup).flowItems fuel false
      (n :: seen) = _
    rw [ih (by omega), List.reverse_cons, List.append_assoc]
    rfl

/-- **The entries of a mapping**, no key of which is noted if they are distinct. -/
theorem flowEntries_run {es : List (Node × Node)} (h : List.Forall₂ BuildsEntry parts es)
    {first : Bool} (hfuel : 2 * (joined first parts).length + 1 ≤ fuel)
    (done : List (Node × Node))
    (hdistinct : (es.map fun (e : Node × Node) => e.1.keyText).Nodup)
    (hnew : ∀ e ∈ es, ∀ d ∈ done, d.1.keyText ≠ e.1.keyText) :
    (s.ahead (joined first parts ++ .flowMappingEnd :: rest) dup).flowEntries fuel first
      ⟨.invalid, done⟩ = .ok (.mapping (done.reverse ++ es), s.ahead rest dup) := by
  induction h generalizing fuel first done with
  | nil =>
    obtain ⟨fuel, rfl⟩ : ∃ n, fuel = n + 1 := ⟨fuel - 1, by omega⟩
    rw [List.append_nil]
    exact Parser.flowEntries_end first _
  | @cons a e parts es ha _ ih =>
    obtain ⟨hnewe, hnews⟩ := List.forall_mem_cons.1 hnew
    rw [List.map_cons, List.nodup_cons] at hdistinct
    cases ha with
    | @member key value n htokens hvalue =>
      obtain ⟨t, ts, hstart, ht⟩ := hvalue.starts
      have hlength : (joined first (a :: parts)).length = (Parser.comma first).length +
          (value.tokens.length + 3 + (joined false parts).length) := by
        rw [joined, List.length_append, List.length_append, htokens]
        rfl
      obtain ⟨fuel, rfl⟩ : ∃ n, fuel = n + 2 := ⟨fuel - 2, by omega⟩
      have hnode := hvalue.node fuel false false s dup
        (joined false parts ++ .flowMappingEnd :: rest) (by omega)
      rw [hstart, List.cons_append] at hnode
      obtain ⟨dup', hadd, hdup⟩ := Entries_add s dup
        (joined false parts ++ .flowMappingEnd :: rest) (.string key) n done rfl
      rw [hdup hnewe] at hadd
      rw [joined, List.append_assoc, List.append_assoc, htokens, hstart]
      rw [List.cons_append, List.cons_append, Parser.flowEntries_key, List.cons_append,
        List.cons_append, Parser.flowValue_value ht, hnode]
      simp only [bind, Except.bind]
      rw [hadd, ih (by omega) _ hdistinct.2, List.reverse_cons, List.append_assoc]
      · rfl
      · rintro q hq d hd
        obtain rfl | hd := List.mem_cons.1 hd
        · exact fun heq => hdistinct.1 (List.mem_map.2 ⟨q, hq, heq.symm⟩)
        · exact hnews q hq d hd

theorem Builds.bracketed_of_run {mapping : Bool} {n : Node}
    (hrun : ∀ (fuel : Nat) (block indentless : Bool) (s : Parser) (dup : Option Node)
      (rest : List Token), 2 * (joined true parts).length + 1 ≤ fuel →
      (s.ahead (openingToken mapping :: (joined true parts ++ closingToken mapping :: rest))
        dup).node (fuel + 1) block indentless = .ok (n, s.ahead rest dup)) :
    (bracketed mapping parts).Builds n := by
  refine ⟨⟨_, _, rfl, by cases mapping <;> rfl⟩,
    fun fuel block indentless s dup rest hfuel => ?_⟩
  rw [bracketed, listed_tokens] at hfuel ⊢
  rw [List.length_cons, List.length_append, List.length_singleton] at hfuel
  obtain ⟨fuel, rfl⟩ : ∃ n, fuel = n + 1 := ⟨fuel - 1, by omega⟩
  rw [List.cons_append, List.append_assoc]
  exact hrun fuel block indentless s dup rest (by omega)

/-- **Parts between square brackets are put together to a sequence.** -/
theorem Builds.array {ns : List Node} (h : List.Forall₂ Builds parts ns) :
    (bracketed false parts).Builds (.array ns) :=
  .bracketed_of_run fun _ block indentless s dup rest hfuel =>
    (Parser.node_flowSequence block indentless).trans (flowItems_run s dup rest h hfuel [])

/-- **Members between braces are put together to a mapping.** -/
theorem Builds.mapping {es : List (Node × Node)} (h : List.Forall₂ BuildsEntry parts es)
    (hdistinct : (es.map fun (e : Node × Node) => e.1.keyText).Nodup) :
    (bracketed true parts).Builds (.mapping es) :=
  .bracketed_of_run fun _ block indentless s dup rest hfuel =>
    (Parser.node_flowMapping block indentless).trans
      (flowEntries_run s dup rest h hfuel [] hdistinct fun _ _ _ hd => absurd hd List.not_mem_nil)

/-! ## Documents -/

open Node

/-- The tokens of a piece are put together to a node, which is read as a document. -/
def Reads (a : Piece) (d : Document) : Prop := ∃ n, a.Builds n ∧ n.toDocument = .ok d

theorem exists_items {xs : List Document}
    (h : ∀ x ∈ xs, (ofDocument x).Reads (x.mapInts readInt)) :
    ∃ ns, List.Forall₂ Builds (ofItems xs) ns ∧
      itemDocuments ns = .ok (Document.mapIntsItems readInt xs) := by
  induction xs with
  | nil => exact ⟨[], .nil, rfl⟩
  | cons x xs ih =>
    obtain ⟨⟨n, hbuilds, hn⟩, hxs⟩ := List.forall_mem_cons.1 h
    obtain ⟨ns, hrest, hns⟩ := ih hxs
    exact ⟨n :: ns, .cons hbuilds hrest, itemDocuments_cons_iff.2 ⟨hn, hns⟩⟩

theorem exists_entries {ms : Members}
    (h : ∀ p ∈ ms, (ofDocument p.2).Reads (p.2.mapInts readInt)) :
    ∃ es, List.Forall₂ BuildsEntry (ofMembers ms) es ∧
      List.Forall₂ IsMember es (Document.mapIntsMembers readInt ms) := by
  induction ms with
  | nil => exact ⟨[], .nil, .nil⟩
  | cons p ms ih =>
    obtain ⟨⟨n, hbuilds, hn⟩, hms⟩ := List.forall_mem_cons.1 h
    obtain ⟨es, hrest, hes⟩ := ih hms
    have hentry : BuildsEntry (.member Json.escape p.1.toList (ofDocument p.2))
        (.string p.1, n) := .member (by rw [member, String.ofList_toList]) hbuilds
    exact ⟨_ :: es, .cons hentry hrest, .cons ⟨rfl, hn⟩ hes⟩

/-- **Every document is read as itself, but for integers that do not fit.** -/
theorem reads_ofDocument {d : Document} (h : d.Proper) :
    (ofDocument d).Reads (d.mapInts readInt) := by
  induction d using Document.induction with
  | null => exact ⟨_, .scalar rfl, rfl⟩
  | bool b => cases b <;> exact ⟨_, .scalar rfl, rfl⟩
  | int i => exact ⟨_, .scalar rfl, toDocument_intChars i⟩
  | float x =>
    have hplus : Json.layout.plus.toList = [] ∨ Json.layout.plus.toList = ['+'] := .inr rfl
    refine ⟨_, .scalar rfl, ?_⟩
    rw [String.ofList_toList]
    change (resolvePlain (x.render Json.layout)).toDocument = _
    rw [resolvePlain_render hplus, toDocument, realDocument_render hplus]
    rfl
  | string s =>
    refine ⟨_, .scalar rfl, ?_⟩
    rw [String.ofList_toList]
    rfl
  | array xs ih =>
    obtain ⟨ns, hbuilds, hns⟩ := exists_items fun x hx => ih x hx (h.of_mem hx)
    refine ⟨.array ns, .array hbuilds, ?_⟩
    rw [toDocument, hns, Document.mapInts]
    rfl
  | object ms ih =>
    obtain ⟨es, hbuilds, hes⟩ := exists_entries fun p hp => ih p hp (h.of_mem_members hp)
    have hkeys : (Members.keys (Document.mapIntsMembers readInt ms)).Nodup := by
      rw [Document.keys_mapIntsMembers]
      exact h.distinct_keys
    have hdistinct : (es.map fun (e : Node × Node) => e.1.keyText).Nodup := by
      rw [keyTexts_eq hes]
      exact hkeys.map fun _ _ => Except.ok.inj
    have hmembers : entryMembers [] es = .ok (Document.mapIntsMembers readInt ms) :=
      entryMembers_of_forall₂ hes hkeys
    refine ⟨.mapping es, .mapping hbuilds hdistinct, ?_⟩
    rw [toDocument, hmembers, Document.mapInts]
    rfl

end Piece

/-- **The compact text of a document that is not too deep is read as the document**, but for
integers that do not fit 64 bits. -/
theorem load_toJson {d : Document} (h : d.Proper) (hdepth : d.depth ≤ Lexer.flowLimit) :
    load d.toJson = .ok (d.mapInts readInt) := by
  obtain ⟨n, hbuilds, hn⟩ := Piece.reads_ofDocument h
  have hnode := hbuilds.node (8 * (Piece.ofDocument d).tokens.length + 23) true false .initial
    none [.streamEnd] (by omega)
  have hparse : parseDocuments d.toJson = .ok [n] :=
    Parser.parseDocuments_of_node (tokenize_toJson hdepth) hbuilds.starts hnode
  rw [load_eq_ok_iff, parse_of_root hparse, hn]

/-- **The compact text of a document that is too deep is refused.** -/
theorem load_toJson_deep {d : Document} (h : Lexer.flowLimit < d.depth) :
    load d.toJson = .error (.serialization (some subject) Problem.tooDeep.message) := by
  obtain ⟨ts, htokenize, hlength⟩ := tokenize_toJson_deep h
  have hdrop : ts.drop 1 = [] := List.drop_eq_nil_of_le hlength
  have hparse : parseDocuments d.toJson = .error .tooDeep := by
    rw [parseDocuments, htokenize, hdrop]
    rfl
  rw [load, parse_of_problem hparse]
  rfl

/-! ## Files -/

theorem text_toUTF8 (s : String) : (PathContent.file s.toUTF8).text = .ok s := by
  have h : String.fromUTF8? s.toUTF8 = some s := by
    rw [String.fromUTF8?, String.toUTF8_eq_toByteArray, dif_pos s.isValidUTF8]
    rfl
  rw [PathContent.text]
  simp only [h]

/-- A text is read as a document, on its own and in a file. -/
structure LoadsAs (text : String) (d : Document) : Prop where
  read : load text = .ok d
  document : ∀ path, loadDocument path (.file text.toUTF8) = .ok d
  base : ∀ path, loadBase path (.file text.toUTF8) = ManifestBase.ofDocument d
  patch : ∀ path, loadPatch path (.file text.toUTF8) = Patch.read d

theorem LoadsAs.of_load {text : String} {d : Document} (h : load text = .ok d) :
    LoadsAs text d := by
  have hdocument (path : String) : loadDocument path (.file text.toUTF8) = .ok d := by
    rw [loadDocument, text_toUTF8]
    exact h
  refine ⟨h, hdocument, fun path => ?_, fun path => ?_⟩
  · rw [loadBase, hdocument]
    rfl
  · rw [loadPatch, hdocument]
    rfl

/-- **Compact JSON of at most the greatest depth is read as the document it is written for**, but
for integers that do not fit 64 bits with their sign, on its own and in files of base manifests and
of patches; deeper text is refused. -/
theorem load_toJson_cases {d : Document} (h : d.Proper) :
    (d.depth ≤ Lexer.flowLimit →
      (d.Signed → LoadsAs d.toJson d) ∧
      ∃ f : Int → Document, (∀ i, signed64? i = some i → f i = .int i) ∧
        LoadsAs d.toJson (d.mapInts f)) ∧
    (Lexer.flowLimit < d.depth →
      load d.toJson = .error (.serialization (some subject) Problem.tooDeep.message)) := by
  refine ⟨fun hdepth => ?_, load_toJson_deep⟩
  have hloads : LoadsAs d.toJson (d.mapInts readInt) := .of_load (load_toJson h hdepth)
  refine ⟨fun hsigned => ?_, readInt, fun _ => readInt_of_signed, hloads⟩
  rwa [Document.mapInts_eq_self (fun _ => readInt_of_signed) hsigned] at hloads

theorem flowLimit_lt_nested : Lexer.flowLimit < (Document.nested 256).depth := by
  rw [Document.depth_nested]
  decide

theorem load_toJson_cases_escapes : ∃ d : Document, d.Proper ∧ d.Signed ∧
    d.depth ≤ Lexer.flowLimit ∧ d.toJson = "[\"a\\\"\\n\",-3,\x7b\"k\":true\x7d]" ∧
      LoadsAs d.toJson d ∧
      ∃ deep : Document, deep.Proper ∧ Lexer.flowLimit < deep.depth ∧
        load deep.toJson = .error (.serialization (some subject) Problem.tooDeep.message) := by
  have hproper : (Document.array [.string "a\"\n", .int (-3),
      .object [("k", .bool true)]]).Proper := by simp [Members.keys]
  have hsigned : (Document.array [.string "a\"\n", .int (-3),
      .object [("k", .bool true)]]).Signed := by
    have hobject : (Document.object [("k", .bool true)]).Signed :=
      .object (List.forall_mem_singleton.2 (.bool true))
    refine .array ?_
    rw [List.forall_mem_cons, List.forall_mem_cons, List.forall_mem_singleton]
    exact ⟨.string _, .int rfl, hobject⟩
  have hdeep := Document.proper_nested 256
  refine ⟨_, hproper, hsigned, by decide, by decide +kernel, ?_, _, hdeep, flowLimit_lt_nested, ?_⟩
  · exact ((load_toJson_cases hproper).1 (by decide)).1 hsigned
  · exact (load_toJson_cases hdeep).2 flowLimit_lt_nested

/-- Text that is too deep is refused, and an integer past 64 bits with its sign is taken for a
double. -/
theorem misread_json :
    (Document.nested 256).Proper ∧
      load (Document.nested 256).toJson =
        .error (.serialization (some subject) Problem.tooDeep.message) ∧
      (load (Document.int 18446744073709551615).toJson).toOption.map Document.toJson =
        some "1.8446744073709552e+19" ∧
      load (Document.int 18446744073709551615).toJson ≠ .ok (.int 18446744073709551615) := by
  have hload : load (Document.int 18446744073709551615).toJson =
      .ok (readInt 18446744073709551615) := load_toJson (.int _) (Nat.zero_le _)
  have hjson : (load (Document.int 18446744073709551615).toJson).toOption.map Document.toJson =
      some "1.8446744073709552e+19" := by
    rw [hload]
    decide +kernel
  refine ⟨Document.proper_nested 256, load_toJson_deep flowLimit_lt_nested, hjson, fun heq => ?_⟩
  rw [heq] at hjson
  revert hjson
  decide +kernel

end Yaml

end BatchRun

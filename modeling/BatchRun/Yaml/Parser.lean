import BatchRun.Yaml.Node
import BatchRun.Yaml.Token.Lexer

/-!
# From tokens to nodes

The grammar of blocks and flow collections, read by recursive descent. An anchor names a node from
where it stands; an alias inside the node itself stands for no value. A key that occurs twice in
one mapping is noted, and refused once the whole text has been read.

* `Yaml.Parser`: the tokens left, the anchors and the declared tags;
* `Yaml.Parser.node` and the collections;
* **`Yaml.parseDocuments`**: all documents of a text.
-/

namespace BatchRun

namespace Yaml

/-- The state of reading nodes. -/
structure Parser where
  tokens : List Token
  /-- What the tokens end with. -/
  problem : Option Problem
  /-- Anchors of the document, the latest first, with the numbers of their nodes. -/
  anchors : List (String × Nat)
  /-- Complete nodes that have an anchor, by number. -/
  nodes : List (Nat × Node)
  /-- The number of the next node with an anchor. -/
  nextNumber : Nat
  tags : List (String × String)
  /-- The first key found twice. -/
  duplicate : Option Node

namespace Parser

/-- The next token, or the problem that came instead of it. -/
def peek (s : Parser) : Except Problem Token :=
  match s.tokens with
  | t :: _ => .ok t
  | [] => .error (s.problem.getD .nodeContent)

/-- The state after a token. -/
def skip (s : Parser) : Parser := { s with tokens := s.tokens.drop 1 }

/-- The number of an anchor. -/
def number? (s : Parser) (name : String) : Option Nat := s.anchors.lookup name

/-- The node of a number; a node that is not complete stands for no value. -/
def nodeOf (s : Parser) (number : Nat) : Node := (s.nodes.lookup number).getD .invalid

/-- Gives the node that follows the name of an anchor. -/
def register (s : Parser) (name : String) : Nat × Parser :=
  (s.nextNumber,
    { s with anchors := (name, s.nextNumber) :: s.anchors, nextNumber := s.nextNumber + 1 })

/-- Keeps a complete node for the aliases of its anchor. -/
def complete (s : Parser) (number : Option Nat) (node : Node) : Parser :=
  match number with
  | none => s
  | some n => { s with nodes := (n, node) :: s.nodes }

/-- What a tag stands for. -/
def resolveTag (s : Parser) (handle suffix : String) : Except Problem Tag :=
  match s.tags.lookup handle with
  | some lead => .ok ⟨lead, suffix⟩
  | none =>
    if handle = "!!" then .ok ⟨standardTags, suffix⟩
    else if 2 ≤ handle.length ∧ handle.startsWith "!" ∧ handle.endsWith "!" then
      .error .undeclaredHandle
    else .ok ⟨handle, suffix⟩

/-! ## Mappings -/

/-- A mapping under way. -/
structure Entries where
  /-- The key that waits for its value; no value stands for none. -/
  key : Node
  /-- Complete entries, the last one first. -/
  done : List (Node × Node)

namespace Entries

def empty : Entries := ⟨.invalid, []⟩

/-- The mapping of the complete entries. -/
def node (es : Entries) : Node := .mapping es.done.reverse

/-- Takes a node as the key or as the value of the key that waits. A node that stands for no value
cannot wait as a key. -/
def add (es : Entries) (n : Node) (s : Parser) : Entries × Parser :=
  if es.key.isInvalid then ({ es with key := n }, s)
  else
    let known := es.done.any fun (e : Node × Node) => e.1.same es.key
    (⟨.invalid, (es.key, n) :: es.done⟩,
      if known && s.duplicate.isNone then { s with duplicate := some es.key } else s)

end Entries

/-! ## The grammar -/

/-- Properties of a node: its number, if it has an anchor, and its tag. -/
structure Properties where
  number : Option Nat
  tag : Option Tag

/-- A tag, if one is next. -/
def tag (s : Parser) : Except Problem (Option Tag × Parser) := do
  match ← s.peek with
  | .tag handle suffix => do
    let tag ← s.resolveTag handle suffix
    .ok (some tag, s.skip)
  | _ => .ok (none, s)

/-- An anchor, if one is next. -/
def anchor (s : Parser) : Except Problem (Option Nat × Parser) := do
  match ← s.peek with
  | .anchor name =>
    let (n, s) := s.skip.register name
    .ok (some n, s)
  | _ => .ok (none, s)

/-- An anchor and a tag in either order, each at most once. -/
def properties (s : Parser) : Except Problem (Properties × Parser) := do
  match ← s.peek with
  | .anchor _ => do
    let (number, s) ← anchor s
    let (tag, s) ← tag s
    .ok (⟨number, tag⟩, s)
  | .tag _ _ => do
    let (tag, s) ← tag s
    let (number, s) ← anchor s
    .ok (⟨number, tag⟩, s)
  | _ => .ok (⟨none, none⟩, s)

/-- The node that stands where there is none. -/
def missing : Node := .null

/-- Whether a token ends an entry of a block mapping that has no node. -/
def endsBlockNode (t : Token) : Bool := t == .key || t == .value || t == .blockEnd

mutual

/-- A node. `block` admits block collections, `indentless` a sequence that is no deeper than the
mapping around it. -/
def node (fuel : Nat) (block indentless : Bool) (s : Parser) :
    Except Problem (Node × Parser) :=
  match fuel with
  | 0 => .error .tooDeep
  | fuel + 1 => do
    match ← s.peek with
    | .alias name =>
      match s.number? name with
      | none => .error .unknownAnchor
      | some n => .ok (s.nodeOf n, s.skip)
    | _ => do
      let (props, s) ← properties s
      let t ← s.peek
      let (node, s) ←
        match t, block, indentless with
        | .blockEntry, _, true => indentlessItems fuel [] s
        | .scalar isPlain text, _, _ => .ok (resolve isPlain props.tag text, s.skip)
        | .flowSequenceStart, _, _ => flowItems fuel true [] s.skip
        | .flowMappingStart, _, _ => flowEntries fuel true .empty s.skip
        | .blockSequenceStart, true, _ => blockItems fuel [] s.skip
        | .blockMappingStart, true, _ => blockEntries fuel .empty s.skip
        | _, _, _ =>
          if props.number.isSome || props.tag.isSome then
            .ok (resolve true props.tag "", s)
          else .error .nodeContent
      .ok (node, s.complete props.number node)

/-- The items of a block sequence. -/
def blockItems (fuel : Nat) (seen : List Node) (s : Parser) : Except Problem (Node × Parser) :=
  match fuel with
  | 0 => .error .tooDeep
  | fuel + 1 => do
    match ← s.peek with
    | .blockEnd => .ok (.array seen.reverse, s.skip)
    | .blockEntry => do
      let s := s.skip
      let t ← s.peek
      if t == .blockEntry || t == .blockEnd then blockItems fuel (missing :: seen) s
      else do
        let (x, s) ← node fuel true false s
        blockItems fuel (x :: seen) s
    | _ => .error .blockEntry

/-- The items of a block sequence that is no deeper than the mapping around it. -/
def indentlessItems (fuel : Nat) (seen : List Node) (s : Parser) :
    Except Problem (Node × Parser) :=
  match fuel with
  | 0 => .error .tooDeep
  | fuel + 1 => do
    match ← s.peek with
    | .blockEntry => do
      let s := s.skip
      let t ← s.peek
      if t == .blockEntry || endsBlockNode t then indentlessItems fuel (missing :: seen) s
      else do
        let (x, s) ← node fuel true false s
        indentlessItems fuel (x :: seen) s
    | _ => .ok (.array seen.reverse, s)

/-- The node after the mark of a key or of a value in a block mapping, if there is one. -/
def blockPart (fuel : Nat) (s : Parser) : Except Problem (Node × Parser) :=
  match fuel with
  | 0 => .error .tooDeep
  | fuel + 1 => do
    let t ← s.peek
    if endsBlockNode t then .ok (missing, s) else node fuel true true s

/-- The entries of a block mapping. -/
def blockEntries (fuel : Nat) (es : Entries) (s : Parser) : Except Problem (Node × Parser) :=
  match fuel with
  | 0 => .error .tooDeep
  | fuel + 1 => do
    match ← s.peek with
    | .blockEnd => .ok (es.node, s.skip)
    | .key => do
      let (k, s) ← blockPart fuel s.skip
      let (es, s) := es.add k s
      blockValue fuel es s
    | .value =>
      let (es, s) := es.add missing s
      blockValue fuel es s
    | _ => .error .blockKey

/-- The value of a key in a block mapping, and the entries after it. -/
def blockValue (fuel : Nat) (es : Entries) (s : Parser) : Except Problem (Node × Parser) :=
  match fuel with
  | 0 => .error .tooDeep
  | fuel + 1 => do
    match ← s.peek with
    | .value => do
      let (v, s) ← blockPart fuel s.skip
      let (es, s) := es.add v s
      blockEntries fuel es s
    | _ =>
      let (es, s) := es.add missing s
      blockEntries fuel es s

/-- The items of a flow sequence; an item may be a single entry of a mapping. -/
def flowItems (fuel : Nat) (first : Bool) (seen : List Node) (s : Parser) :
    Except Problem (Node × Parser) :=
  match fuel with
  | 0 => .error .tooDeep
  | fuel + 1 => do
    let t ← s.peek
    if t == .flowSequenceEnd then .ok (.array seen.reverse, s.skip)
    else if !first && t != .flowEntry then .error .flowSequenceEnd
    else do
      let s := if first then s else s.skip
      match ← s.peek with
      | .flowSequenceEnd => .ok (.array seen.reverse, s.skip)
      | .key => do
        let (x, s) ← flowPair fuel s.skip
        flowItems fuel false (x :: seen) s
      | _ => do
        let (x, s) ← node fuel false false s
        flowItems fuel false (x :: seen) s

/-- A single entry that is an item of a flow sequence, the mark of its key having been read. -/
def flowPair (fuel : Nat) (s : Parser) : Except Problem (Node × Parser) :=
  match fuel with
  | 0 => .error .tooDeep
  | fuel + 1 => do
    let t ← s.peek
    let (k, s) ← if t == .value || t == .flowEntry || t == .flowSequenceEnd then
        .ok (missing, s.skip)
      else node fuel false false s
    let (es, s) := Entries.empty.add k s
    match ← s.peek with
    | .value => do
      let s := s.skip
      let t ← s.peek
      let (v, s) ← if t == .flowEntry || t == .flowSequenceEnd then .ok (missing, s)
        else node fuel false false s
      let (es, s) := es.add v s
      .ok (es.node, s)
    | _ =>
      let (es, s) := es.add missing s
      .ok (es.node, s)

/-- The entries of a flow mapping. -/
def flowEntries (fuel : Nat) (first : Bool) (es : Entries) (s : Parser) :
    Except Problem (Node × Parser) :=
  match fuel with
  | 0 => .error .tooDeep
  | fuel + 1 => do
    let t ← s.peek
    if t == .flowMappingEnd then .ok (es.node, s.skip)
    else if !first && t != .flowEntry then .error .flowMappingEnd
    else do
      let s := if first then s else s.skip
      match ← s.peek with
      | .flowMappingEnd => .ok (es.node, s.skip)
      | .key => do
        let s := s.skip
        let t ← s.peek
        let (k, s) ← if t == .value || t == .flowEntry || t == .flowMappingEnd then
            .ok (missing, s)
          else node fuel false false s
        let (es, s) := es.add k s
        flowValue fuel es s
      | .value =>
        let (es, s) := es.add missing s
        flowValue fuel es s
      | _ => do
        let (k, s) ← node fuel false false s
        let (es, s) := es.add k s
        let _ ← s.peek
        let (es, s) := es.add missing s
        flowEntries fuel false es s

/-- The value of a key in a flow mapping, and the entries after it. -/
def flowValue (fuel : Nat) (es : Entries) (s : Parser) : Except Problem (Node × Parser) :=
  match fuel with
  | 0 => .error .tooDeep
  | fuel + 1 => do
    match ← s.peek with
    | .value => do
      let s := s.skip
      let t ← s.peek
      let (v, s) ← if t == .flowEntry || t == .flowMappingEnd then .ok (missing, s)
        else node fuel false false s
      let (es, s) := es.add v s
      flowEntries fuel false es s
    | _ =>
      let (es, s) := es.add missing s
      flowEntries fuel false es s

end

/-! ## Documents -/

/-- Whether a token starts a document of its own or ends the one before. -/
def endsDocument : Token → Bool
  | .versionDirective | .tagDirective _ _ | .documentStart | .documentEnd | .streamEnd => true
  | _ => false

def isDirective : Token → Bool
  | .versionDirective | .tagDirective _ _ => true
  | _ => false

/-- Directives, of which only the last one takes effect. -/
def directives : Nat → Bool → Parser → Except Problem Parser
  | 0, _, s => .ok s
  | fuel + 1, versioned, s => do
    match ← s.peek with
    | .versionDirective =>
      if versioned then .error .duplicateVersion
      else directives fuel true { s.skip with tags := [] }
    | .tagDirective handle lead =>
      directives fuel versioned { s.skip with tags := [(handle, lead)] }
    | _ => .ok s

/-- Past markers that end documents. -/
def skipEndMarkers : Nat → Parser → Except Problem Parser
  | 0, s => .ok s
  | fuel + 1, s => do
    match ← s.peek with
    | .documentEnd => skipEndMarkers fuel s.skip
    | _ => .ok s

/-- The root of a document that has a marker at its start. -/
def explicitDocument (fuel : Nat) (s : Parser) : Except Problem (Node × Parser) := do
  let s ← directives fuel false s
  match ← s.peek with
  | .documentStart => do
    let s := s.skip
    let t ← s.peek
    if endsDocument t then .ok (missing, s) else node fuel true false s
  | _ => .error .documentStart

/-- The documents from here on; `implicit` says whether one may start without a marker. -/
def documents (fuel : Nat) (implicit : Bool) (seen : List Node) (s : Parser) :
    Except Problem (List Node × Parser) :=
  match fuel with
  | 0 => .error .tooDeep
  | fuel + 1 => do
    let s ← skipEndMarkers fuel s
    let t ← s.peek
    if t == .streamEnd then .ok (seen.reverse, s)
    else do
      let s := { s with anchors := [] }
      let (root, s) ← if implicit && !isDirective t && t != .documentStart then
          node fuel true false s
        else explicitDocument fuel s
      let t ← s.peek
      let s := { s with tags := [] }
      if t == .documentEnd then documents fuel true (root :: seen) s.skip
      else if isDirective t then .error .directiveWithoutEnd
      else documents fuel false (root :: seen) s

end Parser

/-- All documents of a text. -/
def parseDocuments (text : String) : Except Problem (List Node) := do
  let lexed := tokenize text
  let s : Parser := ⟨lexed.tokens.drop 1, lexed.problem, [], [], 1, [], none⟩
  let (roots, s) ← s.documents (8 * lexed.tokens.length + 8) true []
  match s.duplicate with
  | some key => .error (.duplicateKey key.render)
  | none => .ok roots

end Yaml

end BatchRun

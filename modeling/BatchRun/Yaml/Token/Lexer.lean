import BatchRun.Yaml.Token.Scalar
import BatchRun.Yaml.Token.Tag

/-!
# From text to tokens

Tokens are read one after the other. What looks like a scalar turns out to be a key only when the
colon after it is met; until then its place among the tokens is remembered, and the tokens that
start the key are put in there. A reader that asks for tokens one by one gets those before the
place of an undecided key, so when the text fails, no token from that place on counts as read.

* `Yaml.Lexer`: the state, `Yaml.Lexer.next`: one step;
* **`Yaml.tokenize`**: the tokens, and the problem that ends them.
-/

namespace BatchRun

namespace Yaml

/-- A place where a key may start. -/
structure KeySpot where
  possible : Bool
  /-- The structure around it admits nothing but a key here. -/
  required : Bool
  /-- The number of its first token. -/
  number : Nat
  index : Nat
  line : Nat
  column : Nat

/-- No key. -/
def KeySpot.none : KeySpot := ⟨false, false, 0, 0, 0, 0⟩

/-- A level of indentation to go back to; some levels are no block of their own. -/
structure Level where
  indent : Int
  isBlock : Bool

/-- The state of reading tokens. -/
structure Lexer where
  pos : Cursor
  /-- The tokens read so far, the last one first. -/
  out : List Token
  count : Nat
  keyAllowed : Bool
  /-- One spot for each open flow collection and one for the block around them. -/
  keys : List KeySpot
  indent : Int
  levels : List Level
  /-- How many flow collections are open. -/
  flow : Nat
  mappingStarted : Bool
  /-- A mapping without brackets is open in a flow sequence. -/
  implicitMapping : Bool
  /-- Where a colon needs no blank after it. -/
  adjacent : Nat
  /-- The last token is an anchor or a tag in the first column. -/
  marginProperty : Bool
  finished : Bool

namespace Lexer

/-- The state before a text, the token that starts every stream having been read. -/
def start (cs : List Char) : Lexer :=
  ⟨Cursor.start cs, [.streamStart], 1, true, [KeySpot.none], -1, [], 0, false, false, 0, false,
    false⟩

def inFlow (l : Lexer) : Bool := l.flow != 0

/-- Appends a token. -/
def emit (t : Token) (l : Lexer) : Lexer :=
  { l with out := t :: l.out, count := l.count + 1, marginProperty := false }

/-- Puts a token at the place of a number. -/
def emitAt (number : Nat) (t : Token) (l : Lexer) : Lexer :=
  let k := l.count - number
  { l with out := l.out.take k ++ t :: l.out.drop k, count := l.count + 1 }

def moveTo (p : Cursor) (l : Lexer) : Lexer := { l with pos := p }

def allowKey (allowed : Bool) (l : Lexer) : Lexer := { l with keyAllowed := allowed }

/-! ## Keys -/

/-- The spot of the innermost collection. -/
def spot (l : Lexer) : KeySpot := l.keys.headD KeySpot.none

def setSpot (s : KeySpot) (l : Lexer) : Lexer := { l with keys := s :: l.keys.drop 1 }

/-- Remembers that a key may start here. -/
def saveKey (l : Lexer) : Lexer :=
  if l.keyAllowed then
    let required := !l.inFlow && l.indent == (l.pos.column : Int)
      && (l.levels.head?.any Level.isBlock)
    l.setSpot ⟨true, required, l.count, l.pos.index, l.pos.line, l.pos.column⟩
  else l

/-- Gives up the innermost spot. -/
def dropKey (l : Lexer) : Except Problem Lexer :=
  let s := l.spot
  if s.possible && s.required then .error .keyExpected
  else .ok (l.setSpot { s with possible := false })

/-- Gives up the spots that a key in a block cannot reach any more: those on another line or too
far back. -/
def staleKeys (l : Lexer) : Except Problem Lexer :=
  let stale (s : KeySpot) : Bool :=
    s.possible && !l.inFlow && (s.line < l.pos.line || s.index + 1024 < l.pos.index)
  if l.keys.any (fun (s : KeySpot) => stale s && s.required) then .error .keyWithoutColon
  else
    let keys := l.keys.map fun (s : KeySpot) => { s with possible := s.possible && !stale s }
    .ok { l with keys := keys }

/-- How many tokens a reader has got that waits for the next one. -/
def delivered (l : Lexer) : Nat :=
  l.keys.foldl (fun (n : Nat) (s : KeySpot) => if s.possible then min n s.number else n) l.count

/-! ## Indentation -/

/-- Ends the blocks that are deeper than a column. -/
def closeBlocks (column : Int) (l : Lexer) : Lexer :=
  if l.inFlow then l
  else go l.levels l
where
  go : List Level → Lexer → Lexer
  | [], l => l
  | level :: levels, l =>
    if l.indent ≤ column then l
    else
      let l := { l with indent := level.indent, levels := levels }
      go levels (if level.isBlock then l.emit .blockEnd else l)

/-- Starts a block at a column that is deeper than the current one. The token is put at the place
of a number, or last. -/
def openBlock (column : Nat) (number : Option Nat) (t : Token) (l : Lexer) : Lexer :=
  if l.inFlow then l
  else
    let l := match l.levels with
      | level :: levels =>
        if l.indent ≤ (column : Int) && !level.isBlock then
          { l with indent := level.indent, levels := levels }
        else l
      | [] => l
    if l.indent < (column : Int) then
      let l := { l with indent := column, levels := ⟨l.indent, true⟩ :: l.levels }
      match number with
      | some n => l.emitAt n t
      | none => l.emit t
    else l

/-- Asks what follows to be indented by one column at least. -/
def openColumn (l : Lexer) : Lexer :=
  if !l.inFlow && l.levels.head?.any Level.isBlock then
    { l with indent := l.indent + 1, levels := ⟨l.indent, false⟩ :: l.levels }
  else l

/-- Goes back to the last level that is a block. -/
def closeColumns (l : Lexer) : Lexer :=
  go l.levels l
where
  go : List Level → Lexer → Lexer
  | [], l => l
  | level :: levels, l =>
    if level.isBlock then l else go levels { l with indent := level.indent, levels := levels }

/-! ## Blanks -/

/-- Past blanks, breaks and comments. -/
def skipToToken (fuel : Nat) (l : Lexer) : Except Problem Lexer :=
  match fuel with
  | 0 => .ok l
  | fuel + 1 =>
    let p := l.pos
    let c := p.head
    if c == '\t' && !l.levels.isEmpty && p.fresh && (p.column : Int) < l.indent then do
      let p ← p.finishLine
      if isLineEnd p.head then skipToToken fuel (l.moveTo p) else .error .tabIndentation
    else if isSpaceOrTab c then skipToToken fuel (l.moveTo p.skipBlank)
    else if isLineBreak c then
      let l := l.moveTo p.skipBreak
      skipToToken fuel (if l.inFlow then l else l.allowKey true)
    else if c == '#' then skipToToken fuel (l.moveTo p.skipComment)
    else .ok l

/-- Past spaces, breaks and comments, of which there must be one. -/
def skipGap (fuel : Nat) (found : Bool) (l : Lexer) : Except Problem Lexer :=
  match fuel with
  | 0 => .ok l
  | fuel + 1 =>
    let c := l.pos.head
    if c == ' ' then skipGap fuel true (l.moveTo l.pos.skipBlank)
    else if isLineBreak c then
      let l := l.moveTo l.pos.skipBreak
      skipGap fuel true (if l.inFlow then l else l.allowKey true)
    else if c == '#' then skipGap fuel found (l.moveTo l.pos.skipComment)
    else if found then .ok l
    else .error .blankAfterKey

/-- Enough steps to pass all that is left. -/
def fuel (l : Lexer) : Nat := l.pos.rest.length + 2

/-! ## Tokens -/

/-- The end of the text. -/
def finish (l : Lexer) : Except Problem Lexer :=
  if l.keys.any (fun (s : KeySpot) => s.possible && s.required) then .error .keyExpected
  else
    let l := { l with keys := l.keys.map fun (s : KeySpot) => { s with possible := false } }
    let l := (l.closeBlocks (-1)).allowKey false
    .ok { l.emit .streamEnd with finished := true }

def directive (l : Lexer) : Except Problem Lexer := do
  let l ← (l.closeBlocks (-1)).dropKey
  let (t, p) ← readDirective l.pos
  .ok (((l.allowKey false).moveTo p).emit t)

/-- A marker of a document. -/
def marker (t : Token) (l : Lexer) : Except Problem Lexer := do
  let l ← (l.closeBlocks (-1)).dropKey
  .ok (((l.allowKey false).moveTo (l.pos.skipMany 3)).emit t)

/-- The marker that ends a document; nothing else may stand on its line. -/
def endMarker (l : Lexer) : Except Problem Lexer := do
  let l ← l.marker .documentEnd
  let p ← l.pos.finishLine
  if isLineEnd p.head then .ok (l.moveTo p) else .error .contentAfterEnd

/-- Ends a mapping without brackets. -/
def endImplicit (l : Lexer) : Lexer :=
  if l.implicitMapping then
    { l with implicitMapping := false, mappingStarted := false }.emit .flowMappingEnd
  else l

/-- How deep flow collections may be nested. -/
def flowLimit : Nat := 255

def flowStart (t : Token) (l : Lexer) : Except Problem Lexer := do
  let l := l.saveKey.openColumn
  if l.flow = flowLimit then .error .tooDeep
  else
    let l := { l with keys := KeySpot.none :: l.keys, flow := l.flow + 1, keyAllowed := true }
    let l := if t = .flowMappingStart then { l with mappingStarted := true } else l
    let p ← l.pos.skip.finishLine
    .ok ((l.moveTo p).emit t)

def flowEnd (t : Token) (l : Lexer) : Except Problem Lexer := do
  let l ← l.dropKey
  let l := if l.inFlow then { l with flow := l.flow - 1, keys := l.keys.drop 1 } else l
  let l := (l.allowKey false).endImplicit
  let p ← l.pos.skip.finishLine
  let l := if l.inFlow then { l with adjacent := p.index } else l
  .ok ((l.moveTo p).emit t)

def flowEntry (l : Lexer) : Except Problem Lexer := do
  let l ← l.dropKey
  let l := (l.allowKey true).endImplicit
  let p ← l.pos.skip.finishLine
  .ok ((l.moveTo p).emit .flowEntry)

def blockEntry (l : Lexer) : Except Problem Lexer :=
  if l.inFlow then .error .entryInFlow
  else if !l.keyAllowed then .error .entryNotAllowed
  else if l.marginProperty && l.pos.column == 0 && -1 < l.indent then .error .anchorIndentation
  else do
    let l := (l.openBlock l.pos.column none .blockSequenceStart).moveTo l.pos.skip
    let (passed, p) ← l.pos.skipToLineEnd true
    if passed.tabs && p.head == '-' && isWordEnd (p.peek 1) then .error .blankAfterDash
    else do
      let (_, p) ← p.skipToLineEnd false
      let l := l.moveTo p
      let l := if isLineBreak p.head || isFlowMark p.head then l.openColumn else l
      let l ← l.dropKey
      .ok ((l.allowKey true).emit .blockEntry)

/-- A key after a question mark. -/
def complexKey (l : Lexer) : Except Problem Lexer := do
  let l ← if l.inFlow then .ok { l with mappingStarted := true }
    else if l.keyAllowed then .ok (l.openBlock l.pos.column none .blockMappingStart)
    else .error .keyNotAllowed
  let l ← l.dropKey
  let l := (l.allowKey (!l.inFlow)).moveTo l.pos.skip
  let l ← l.skipGap l.fuel false
  if l.pos.head == '\t' then .error .tabAfterKey else .ok (l.emit .key)

/-- What follows a colon: a tab alone does not set off a word or an entry. -/
def afterColon (p : Cursor) : Except Problem Cursor :=
  if p.head == '\t' then do
    let (passed, p) ← p.skipToLineEnd true
    if !passed.spaces && isNameChar p.head then .error .blankAfterColon else .ok p
  else .ok p

/-- A colon. -/
def value (l : Lexer) : Except Problem Lexer := do
  let s := l.spot
  let colon := l.pos
  let implicit := l.inFlow && !l.mappingStarted
  let p ← afterColon l.pos.skip
  let l := { l with pos := p, implicitMapping := implicit }
  if s.possible then
    let l := l.emitAt s.number .key
    if implicit && s.line < colon.line then .error .valuePlacement
    else
      let l := if implicit then l.emitAt s.number .flowMappingStart else l
      let l := (l.openBlock s.column (some s.number) .blockMappingStart).openColumn
      let l := (l.setSpot { l.spot with possible := false }).allowKey false
      .ok (l.emit .value)
  else
    let l := if implicit then l.emit .flowMappingStart else l
    if l.inFlow then .ok ((l.openColumn.allowKey false).emit .value)
    else if !l.keyAllowed then .error .valueNotAllowed
    else
      let l := (l.openBlock colon.column none .blockMappingStart).openColumn
      .ok ((l.allowKey true).emit .value)

/-- An anchor, an alias or a tag. -/
def property (read : Cursor → Except Problem (Token × Cursor)) (isAlias : Bool) (l : Lexer) :
    Except Problem Lexer := do
  let l := l.saveKey.allowKey false
  let (t, p) ← read l.pos
  .ok { (l.moveTo p).emit t with marginProperty := !isAlias && l.pos.column == 0 }

def anchorToken (p : Cursor) : Except Problem (Token × Cursor) :=
  (readAnchorName p).map fun (r : String × Cursor) => (.anchor r.1, r.2)

def aliasToken (p : Cursor) : Except Problem (Token × Cursor) :=
  (readAnchorName p).map fun (r : String × Cursor) => (.alias r.1, r.2)

def blockScalar (isLiteral : Bool) (l : Lexer) : Except Problem Lexer := do
  let l := (l.saveKey.allowKey true).closeColumns
  let (s, p) ← readBlockScalar isLiteral l.indent l.pos.skip
  .ok ((l.moveTo p).emit (.scalar false s))

def quotedScalar (single : Bool) (l : Lexer) : Except Problem Lexer := do
  let l := l.saveKey.allowKey false
  let (s, p) ← readQuoted single l.inFlow l.indent l.pos
  let l := l.moveTo p
  let l ← l.skipToToken l.fuel
  .ok ({ l with adjacent := l.pos.index }.emit (.scalar false s))

def plainScalar (l : Lexer) : Except Problem Lexer := do
  let l := (l.saveKey.allowKey false).closeColumns
  let (s, p) ← readPlain l.inFlow (l.indent + 1) l.pos
  let l := l.moveTo p
  .ok ((if p.fresh then l.allowKey true else l).emit (.scalar true s))

/-- The token at a place that is neither a directive nor a marker. -/
def content (l : Lexer) : Except Problem Lexer :=
  let p := l.pos
  let c := p.head
  let nextEnds := isWordEnd (p.peek 1)
  if c == '[' then l.flowStart .flowSequenceStart
  else if c == '{' then l.flowStart .flowMappingStart
  else if c == ']' then l.flowEnd .flowSequenceEnd
  else if c == '}' then l.flowEnd .flowMappingEnd
  else if c == ',' then l.flowEntry
  else if c == '-' && nextEnds then l.blockEntry
  else if c == '?' && nextEnds then l.complexKey
  else if c == ':' && (nextEnds ||
      (l.inFlow && (isFlowMark (p.peek 1) || p.index == l.adjacent))) then l.value
  else if c == '*' then l.property aliasToken true
  else if c == '&' then l.property anchorToken false
  else if c == '!' then l.property (readTag l.inFlow) false
  else if c == '|' && !l.inFlow then l.blockScalar true
  else if c == '>' && !l.inFlow then l.blockScalar false
  else if c == '\'' then l.quotedScalar true
  else if c == '"' then l.quotedScalar false
  else if c == '%' || c == '@' || c == '`' then .error (.unexpected c)
  else l.plainScalar

/-- One step: at least one token. -/
def next (l : Lexer) : Except Problem Lexer := do
  let l ← l.skipToToken l.fuel
  let l ← l.staleKeys
  let l := l.closeBlocks l.pos.column
  if isEndMark l.pos.head then l.finish
  else if l.pos.column == 0 && l.pos.head == '%' then l.directive
  else if l.pos.atMarker '-' then l.marker .documentStart
  else if l.pos.atMarker '.' then l.endMarker
  else if (l.pos.column : Int) < l.indent then .error .indentation
  else l.content

end Lexer

/-- The tokens of a text, and the problem that ends them. -/
structure Lexed where
  tokens : List Token
  problem : Option Problem

/-- Reads tokens to the end of the text. -/
def lexFrom : Nat → Lexer → Lexed
  | 0, l => ⟨l.out.reverse, none⟩
  | fuel + 1, l =>
    if l.finished then ⟨l.out.reverse, none⟩
    else
      match l.staleKeys with
      | .error problem => ⟨l.out.reverse.take l.delivered, some problem⟩
      | .ok l =>
        match l.next with
        | .error problem => ⟨l.out.reverse.take l.delivered, some problem⟩
        | .ok l => lexFrom fuel l

/-- The tokens of a text. -/
def tokenize (text : String) : Lexed :=
  let cs := text.toList
  lexFrom (cs.length + 2) (Lexer.start cs)

end Yaml

end BatchRun

import BatchRun.Yaml.Cursor

/-!
# Reading scalars

A plain or quoted scalar may go on over several lines: a single line break in it is read as a
space, and of several the first one is dropped. A block scalar keeps its lines (literal) or joins
them the same way (folded), and its header says what becomes of the breaks at its end.

* `Yaml.Gap`: blanks and breaks between two words of a scalar;
* `Yaml.readQuoted`, `Yaml.readPlain`;
* **`Yaml.readBlockScalar`**.
-/

namespace BatchRun

namespace Yaml

/-- What stands between two words of a scalar. -/
structure Gap where
  /-- The blanks, the last one first. -/
  blanks : List Char
  /-- A break follows the blanks. -/
  broken : Bool
  /-- How many further breaks follow. -/
  more : Nat

namespace Gap

def none : Gap := ⟨[], false, 0⟩

/-- Line feeds. -/
def feeds (n : Nat) : List Char := List.replicate n '\n'

/-- What a gap with a break in it is read as. -/
def folded (g : Gap) : List Char :=
  if !g.broken then feeds g.more else if g.more = 0 then [' '] else feeds g.more

end Gap

/-! ## Quoted scalars -/

/-- The character that a letter after a backslash stands for. -/
def escapedChar? (c : Char) : Option Char :=
  match c with
  | '0' => some (Char.ofNat 0)
  | 'a' => some (Char.ofNat 0x07)
  | 'b' => some (Char.ofNat 0x08)
  | 't' => some '\t'
  | '\t' => some '\t'
  | 'n' => some '\n'
  | 'v' => some (Char.ofNat 0x0B)
  | 'f' => some (Char.ofNat 0x0C)
  | 'r' => some '\r'
  | 'e' => some (Char.ofNat 0x1B)
  | ' ' => some ' '
  | '"' => some '"'
  | '/' => some '/'
  | '\\' => some '\\'
  | 'N' => some (Char.ofNat 0x85)
  | '_' => some (Char.ofNat 0xA0)
  | 'L' => some (Char.ofNat 0x2028)
  | 'P' => some (Char.ofNat 0x2029)
  | _ => none

/-- How many hexadecimal digits follow a letter after a backslash. -/
def escapeLength? (c : Char) : Option Nat :=
  if c = 'x' then some 2 else if c = 'u' then some 4 else if c = 'U' then some 8 else none

/-- The number of some hexadecimal digits. -/
def hexNumber? (cs : List Char) : Option Nat :=
  cs.foldl (fun (acc : Option Nat) (c : Char) =>
    match acc, hexDigit? c with
    | some n, some d => some (n * 16 + d)
    | _, _ => none) (some 0)

/-- Whether a number is the code point of a character. -/
def isCodePoint (n : Nat) : Bool := n < 0xD800 || (0xDFFF < n && n < 0x110000)

/-- The character of an escape. -/
def readEscape (p : Cursor) : Except Problem (Char × Cursor) :=
  match escapedChar? (p.peek 1), escapeLength? (p.peek 1) with
  | some c, _ => .ok (c, p.skipMany 2)
  | none, none => .error .unknownEscape
  | none, some k =>
    let q := p.skipMany 2
    match hexNumber? ((List.range k).map q.peek) with
    | none => .error .hexDigits
    | some n =>
      if isCodePoint n then .ok (Char.ofNat n, q.skipMany k) else .error .escapedCodePoint

/-- A word of a quoted scalar, put before what was read in reverse, and whether an escaped break
ends it. -/
def readQuotedWord (single : Bool) : Nat → List Char → Cursor →
    Except Problem (List Char × Bool × Cursor)
  | 0, seen, p => .ok (seen, false, p)
  | fuel + 1, seen, p =>
    let c := p.head
    if isWordEnd c then .ok (seen, false, p)
    else if single then
      if c == '\'' then
        if p.peek 1 == '\'' then readQuotedWord single fuel ('\'' :: seen) (p.skipMany 2)
        else .ok (seen, false, p)
      else readQuotedWord single fuel (c :: seen) p.skip
    else if c == '"' then .ok (seen, false, p)
    else if c == '\\' then
      if isLineBreak (p.peek 1) then .ok (seen, true, p.skip.skipBreak)
      else do
        let (c, q) ← readEscape p
        readQuotedWord single fuel (c :: seen) q
    else readQuotedWord single fuel (c :: seen) p.skip

/-- The gap after a word of a quoted scalar; `folding` says whether a break was passed already. -/
def readQuotedGap (indent : Int) : Nat → Bool → Gap → Cursor →
    Except Problem (Bool × Gap × Cursor)
  | 0, folding, g, p => .ok (folding, g, p)
  | fuel + 1, folding, g, p =>
    let c := p.head
    if isSpaceOrTab c then
      if !folding then
        readQuotedGap indent fuel folding { g with blanks := c :: g.blanks } p.skipBlank
      else if c == '\t' && (p.column : Int) < indent then .error .tabInQuoted
      else readQuotedGap indent fuel folding g p.skipBlank
    else if isLineBreak c then
      if folding then readQuotedGap indent fuel folding { g with more := g.more + 1 } p.skipBreak
      else readQuotedGap indent fuel true ⟨[], true, g.more⟩ p.skipBreak
    else .ok (folding, g, p)

/-- The rest of a quoted scalar, the opening quote having been read. -/
def readQuotedFrom (single : Bool) (indent : Int) : Nat → List Char → Cursor →
    Except Problem (List Char × Cursor)
  | 0, _, _ => .error .unterminatedQuoted
  | fuel + 1, seen, p =>
    if p.atAnyMarker then .error .markerInQuoted
    else if isEndMark p.head then .error .unterminatedQuoted
    else if (p.column : Int) < indent then .error .quotedIndentation
    else do
      let (seen, escaped, p) ← readQuotedWord single p.rest.length seen p
      if p.head == (if single then '\'' else '"') then .ok (seen.reverse, p.skip)
      else
        let (folding, g, p) ← readQuotedGap indent p.rest.length escaped Gap.none p
        let seen := if folding then g.folded.reverse ++ seen else g.blanks ++ seen
        readQuotedFrom single indent fuel seen p

/-- Whether what follows a quoted scalar may follow it. -/
def mayFollowQuoted (inFlow : Bool) (startLine : Nat) (p : Cursor) : Bool :=
  let c := p.head
  isLineEnd c || (inFlow && (c == ',' || c == '}' || c == ']' || c == ':'))
    || (!inFlow && c == ':' && startLine == p.line)

/-- A quoted scalar, with what follows it on its line up to the next token. -/
def readQuoted (single inFlow : Bool) (indent : Int) (p : Cursor) :
    Except Problem (String × Cursor) := do
  let (cs, q) ← readQuotedFrom single indent (p.rest.length + 1) [] p.skip
  let q ← q.finishLine
  if mayFollowQuoted inFlow p.line q then .ok (String.ofList cs, q) else .error .trailingContent

/-! ## Plain scalars -/

/-- Whether the next character can belong to a plain scalar. -/
def continuesPlain (inFlow : Bool) (p : Cursor) : Bool :=
  if p.head == ':' then !(isWordEnd (p.peek 1) || (inFlow && isFlowMark (p.peek 1)))
  else !(inFlow && isFlowMark p.head)

/-- A word of a plain scalar, put before what was read in reverse. -/
def readPlainWord (inFlow : Bool) : Nat → List Char → Cursor → List Char × Cursor
  | 0, seen, p => (seen, p)
  | fuel + 1, seen, p =>
    if isWordEnd p.head || !continuesPlain inFlow p then (seen, p)
    else readPlainWord inFlow fuel (p.head :: seen) p.skip

/-- The gap after a word of a plain scalar. -/
def readPlainGap (indent : Int) : Nat → Gap → Cursor → Except Problem (Gap × Cursor)
  | 0, g, p => .ok (g, p)
  | fuel + 1, g, p =>
    let c := p.head
    if isSpaceOrTab c then
      if !p.fresh then readPlainGap indent fuel { g with blanks := c :: g.blanks } p.skipBlank
      else if c == '\t' && (p.column : Int) < indent then do
        let p ← p.finishLine
        if isLineBreak p.head then readPlainGap indent fuel g p else .error .tabInPlain
      else readPlainGap indent fuel g p.skipBlank
    else if isLineBreak c then
      if p.fresh then readPlainGap indent fuel { g with more := g.more + 1 } p.skipBreak
      else readPlainGap indent fuel ⟨[], true, g.more⟩ p.skipBreak
    else .ok (g, p)

/-- The rest of a plain scalar after a gap. -/
def readPlainFrom (inFlow : Bool) (indent : Int) : Nat → List Char → Gap → Cursor →
    Except Problem (List Char × Cursor)
  | 0, seen, _, p => .ok (seen.reverse, p)
  | fuel + 1, seen, g, p =>
    if p.atAnyMarker || p.head == '#' then .ok (seen.reverse, p)
    else if inFlow && p.head == '-' && isFlowMark (p.peek 1) then .error .dashBeforeFlow
    else if isWordEnd p.head || !continuesPlain inFlow p then .ok (seen.reverse, p)
    else
      let seen := if p.fresh then g.folded.reverse ++ seen else g.blanks ++ seen
      let (seen, p) := readPlainWord inFlow p.rest.length seen p
      if !(isSpaceOrTab p.head || isLineBreak p.head) then .ok (seen.reverse, p)
      else do
        let (g, p) ← readPlainGap indent p.rest.length Gap.none p
        if !inFlow && (p.column : Int) < indent then .ok (seen.reverse, p)
        else readPlainFrom inFlow indent fuel seen g p

/-- A plain scalar whose further lines stand at column `indent` or to the right of it. -/
def readPlain (inFlow : Bool) (indent : Int) (p : Cursor) : Except Problem (String × Cursor) :=
  if inFlow && (p.column : Int) < indent then .error .flowIndentation
  else (readPlainFrom inFlow indent (p.rest.length + 1) [] Gap.none p).map
    fun (r : List Char × Cursor) => (String.ofList r.1, r.2)

/-! ## Block scalars -/

/-- What becomes of the breaks at the end of a block scalar. -/
inductive Chomping where
  | strip | clip | keep
  deriving DecidableEq

/-- The chomping of a mark in the header. -/
def chompingOf? (c : Char) : Option Chomping :=
  if c = '+' then some .keep else if c = '-' then some .strip else none

/-- The indentation of a mark in the header. -/
def readIncrement (p : Cursor) : Except Problem (Nat × Cursor) :=
  if !isDecimalDigit p.head then .ok (0, p)
  else if p.head == '0' then .error .zeroIndentation
  else .ok (p.head.toNat - 48, p.skip)

/-- The marks of a header, in either order. -/
def readHeader (p : Cursor) : Except Problem (Chomping × Nat × Cursor) :=
  match chompingOf? p.head with
  | some chomping => do
    let (increment, p) ← readIncrement p.skip
    .ok (chomping, increment, p)
  | none => do
    let (increment, q) ← readIncrement p
    match increment, chompingOf? q.head with
    | 0, _ => .ok (.clip, 0, q)
    | n, some chomping => .ok (chomping, n, q.skip)
    | n, none => .ok (.clip, n, q)

/-- Past spaces up to a column. -/
def skipIndent (indent : Nat) : Nat → Cursor → Cursor
  | 0, p => p
  | fuel + 1, p =>
    if p.column < indent && p.head == ' ' then skipIndent indent fuel p.skipBlank else p

/-- Past empty lines, which are counted, and the indentation of the line after them. -/
def skipEmptyLines (indent : Nat) : Nat → Nat → Cursor → Nat × Cursor
  | 0, n, p => (n, p)
  | fuel + 1, n, p =>
    let p := skipIndent indent p.rest.length p
    if isLineBreak p.head then skipEmptyLines indent fuel (n + 1) p.skipBreak else (n, p)

/-- Past empty lines, which are counted, and all spaces of the line after them; the widest
indentation seen is that of the scalar. -/
def skipFirstLines : Nat → Nat → Nat → Cursor → Nat × Nat × Cursor
  | 0, widest, n, p => (widest, n, p)
  | fuel + 1, widest, n, p =>
    let p := (p.rest.takeWhile fun (c : Char) => c == ' ').foldl
      (fun (p : Cursor) (_ : Char) => p.skipBlank) p
    let widest := max widest p.column
    if isLineBreak p.head then skipFirstLines fuel widest (n + 1) p.skipBreak else (widest, n, p)

/-- Contents of a block scalar under way. -/
structure BlockText where
  /-- What was read, in reverse. -/
  seen : List Char
  /-- A break follows the last line. -/
  broken : Bool
  /-- How many empty lines follow it. -/
  empty : Nat
  /-- The last line started with a blank. -/
  blankLine : Bool

/-- The lines of a block scalar. At the margin only the marker that ends a document ends it. -/
def readBlockLines (isLiteral : Bool) (indent : Nat) : Nat → BlockText → Cursor →
    BlockText × Cursor
  | 0, t, p => (t, p)
  | fuel + 1, t, p =>
    if p.column ≠ indent ∨ isEndMark p.head then (t, p)
    else if indent = 0 && p.atMarker '.' then (t, p)
    else
      let blank := isSpaceOrTab p.head
      let joint :=
        if !isLiteral && t.broken && !t.blankLine && !blank then
          if t.empty = 0 then [' '] else Gap.feeds t.empty
        else (if t.broken then ['\n'] else []) ++ Gap.feeds t.empty
      let (line, p) := p.word fun (c : Char) => !isLineEnd c
      let seen := line.reverse ++ joint ++ t.seen
      if isEndMark p.head then (⟨seen, false, 0, blank⟩, p)
      else
        let p := p.skipBreak
        let (n, p) := skipEmptyLines indent (p.rest.length + 1) 0 p
        readBlockLines isLiteral indent fuel ⟨seen, true, n, blank⟩ p

/-- What a block scalar without any content is read as. -/
def emptyBlock (chomping : Chomping) (sameLine : Bool) (broken : Bool) (empty : Nat) :
    List Char :=
  match chomping with
  | .strip => []
  | _ =>
    if sameLine then []
    else if chomping = .keep ∧ 0 < empty then Gap.feeds empty
    else if broken then ['\n'] else []

/-- The text of a block scalar with its end treated as the header asks. -/
def chomped (chomping : Chomping) (indent : Nat) (t : BlockText) (p : Cursor) : List Char :=
  let tail :=
    if chomping = .strip then []
    else (if t.broken then ['\n'] else [])
      ++ (if isEndMark p.head && max indent 1 ≤ p.column then ['\n'] else [])
  let tail := tail ++ (if chomping = .keep then Gap.feeds t.empty else [])
  t.seen.reverse ++ tail

/-- A block scalar below a structure of indentation `outer`, the opening mark having been
read. -/
def readBlockScalar (isLiteral : Bool) (outer : Int) (p : Cursor) :
    Except Problem (String × Cursor) := do
  let startLine := p.line
  let (chomping, increment, p) ← readHeader p
  let p ← p.finishLine
  if !isLineEnd p.head then .error .blockScalarHeader
  else
    let broken := isLineBreak p.head
    let p := p.skipBreak
    if p.head == '\t' then .error .tabBeforeBlockScalar
    else
      let fuel := p.rest.length + 1
      let given : Nat := if outer < 0 then increment else outer.toNat + increment
      let (indent, empty, p) :=
        if increment = 0 then
          let (widest, n, p) := skipFirstLines fuel 0 0 p
          (max (max widest (outer + 1).toNat) (if 0 < outer then 1 else 0), n, p)
        else
          let (n, p) := skipEmptyLines given fuel 0 p
          (given, n, p)
      if isEndMark p.head then
        .ok (String.ofList (emptyBlock chomping (p.line == startLine) broken empty), p)
      else if p.column < indent ∧ outer < (p.column : Int) then .error .blockScalarIndentation
      else
        let (t, p) := readBlockLines isLiteral indent fuel ⟨[], false, empty, false⟩ p
        .ok (String.ofList (chomped chomping indent t p), p)

end Yaml

end BatchRun

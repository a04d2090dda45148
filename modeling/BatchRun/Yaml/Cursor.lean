import BatchRun.Yaml.Problem

/-!
# A position in a YAML text

* `Yaml.Cursor`: what is still to be read, and where it starts;
* `Yaml.Cursor.skip`, `skipBlank`, `skipBreak`: steps forward;
* `Yaml.Cursor.skipToLineEnd`: **blanks and a comment up to the end of a line**.
-/

namespace BatchRun

namespace Yaml

/-- The character that stands for the end of the text. -/
def endMark : Char := Char.ofNat 0

def isSpaceOrTab (c : Char) : Bool := c == ' ' || c == '\t'

/-- The characters that end a line. -/
def isLineBreak (c : Char) : Bool := c == '\n' || c == '\r'

def isEndMark (c : Char) : Bool := c.toNat == 0

def isLineEnd (c : Char) : Bool := isLineBreak c || isEndMark c

/-- Whether a character cannot belong to a word. -/
def isWordEnd (c : Char) : Bool := isSpaceOrTab c || isLineEnd c

/-- Brackets and commas, which structure flow collections. -/
def isFlowMark (c : Char) : Bool := c == ',' || c == '[' || c == ']' || c == '{' || c == '}'

def isDecimalDigit (c : Char) : Bool := '0' ≤ c && c ≤ '9'

/-- ASCII letters, digits, the low line and the hyphen. -/
def isNameChar (c : Char) : Bool :=
  isDecimalDigit c || ('a' ≤ c && c ≤ 'z') || ('A' ≤ c && c ≤ 'Z') || c == '_' || c == '-'

/-- The value of a hexadecimal digit. -/
def hexDigit? (c : Char) : Option Nat :=
  if '0' ≤ c ∧ c ≤ '9' then some (c.toNat - 48)
  else if 'a' ≤ c ∧ c ≤ 'f' then some (c.toNat - 87)
  else if 'A' ≤ c ∧ c ≤ 'F' then some (c.toNat - 55)
  else none

/-- A position in a text. -/
structure Cursor where
  rest : List Char
  index : Nat
  line : Nat
  column : Nat
  /-- Only blanks stand before the position on its line. -/
  fresh : Bool
  deriving Inhabited

namespace Cursor

/-- The start of a text, which ends at its first null character. -/
def start (cs : List Char) : Cursor :=
  ⟨cs.takeWhile fun (c : Char) => !isEndMark c, 0, 1, 0, true⟩

/-- The character `n` places ahead. -/
def peek (p : Cursor) (n : Nat) : Char := p.rest.getD n endMark

/-- The next character. -/
def head (p : Cursor) : Char := p.rest.headD endMark

/-- Past a blank. -/
def skipBlank (p : Cursor) : Cursor :=
  { p with rest := p.rest.drop 1, index := p.index + 1, column := p.column + 1 }

/-- Past some other character. -/
def skip (p : Cursor) : Cursor := { p.skipBlank with fresh := false }

/-- Past a number of characters. -/
def skipMany : Nat → Cursor → Cursor
  | 0, p => p
  | n + 1, p => skipMany n p.skip

/-- Past a line feed or a carriage return alone. -/
def skipLineChar (p : Cursor) : Cursor :=
  { p with rest := p.rest.drop 1, index := p.index + 1, line := p.line + 1, column := 0
           fresh := true }

/-- Past a line break. -/
def skipBreak (p : Cursor) : Cursor :=
  if p.head == '\r' && p.peek 1 == '\n' then p.skipBlank.skipLineChar
  else if isLineBreak p.head then p.skipLineChar
  else p

/-- Past the characters of a class, which are collected. -/
def takeWhile (accept : Char → Bool) : Nat → Cursor → List Char × Cursor
  | 0, p => ([], p)
  | fuel + 1, p =>
    if accept p.head then
      let (cs, q) := takeWhile accept fuel p.skip
      (p.head :: cs, q)
    else ([], p)

/-- The characters up to where one is not accepted. -/
def word (accept : Char → Bool) (p : Cursor) : List Char × Cursor :=
  takeWhile accept p.rest.length p

/-- Past the rest of a line. -/
def skipComment (p : Cursor) : Cursor := (p.word fun (c : Char) => !isLineEnd c).2

/-- Past spaces and tabs. -/
def skipBlanks (p : Cursor) : Cursor :=
  (p.rest.takeWhile isSpaceOrTab).foldl (fun (p : Cursor) (_ : Char) => p.skipBlank) p

/-- Whether the position is at a marker of a document: three hyphens or three points in the first
columns of a line, with nothing attached. -/
def atMarker (mark : Char) (p : Cursor) : Bool :=
  p.column == 0 && p.head == mark && p.peek 1 == mark && p.peek 2 == mark && isWordEnd (p.peek 3)

/-- Whether the position is at a marker of either kind. -/
def atAnyMarker (p : Cursor) : Bool := p.atMarker '-' || p.atMarker '.'

/-- What was passed on the way to the end of a line. -/
structure Passed where
  tabs : Bool
  spaces : Bool

/-- Past blanks and a comment. -/
def skipToLineEndFrom (tabsToo : Bool) : Nat → Passed → Cursor →
    Except Problem (Passed × Cursor)
  | 0, seen, p => .ok (seen, p)
  | fuel + 1, seen, p =>
    if p.head == ' ' then skipToLineEndFrom tabsToo fuel { seen with spaces := true } p.skipBlank
    else if p.head == '\t' && tabsToo then
      skipToLineEndFrom tabsToo fuel { seen with tabs := true } p.skipBlank
    else if p.head == '#' then
      if seen.tabs || seen.spaces then .ok (seen, p.skipComment)
      else .error .commentWithoutBlank
    else .ok (seen, p)

/-- Past blanks and a comment up to the end of the line, or to what else follows the blanks. A
comment needs a blank before it. -/
def skipToLineEnd (tabsToo : Bool) (p : Cursor) : Except Problem (Passed × Cursor) :=
  skipToLineEndFrom tabsToo (p.rest.length + 1) ⟨false, false⟩ p

/-- Past blanks, tabs included, and a comment. -/
def finishLine (p : Cursor) : Except Problem Cursor := (skipToLineEnd true p).map Prod.snd

end Cursor

end Yaml

end BatchRun

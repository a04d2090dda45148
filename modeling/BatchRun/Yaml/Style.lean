import BatchRun.Yaml.Plain

/-!
# The style of a string

A string is written plain where that is unambiguous, in a literal block where it has line feeds,
else between single quotes, and between double quotes with escapes where no other style can show
it.

* `Yaml.Traits`: what decides about the style, `Yaml.Traits.ofChars`;
* **`Yaml.styleOf`**.
-/

namespace BatchRun

namespace Yaml

/-- How a string is written. -/
inductive Style where
  | plain | singleQuoted | doubleQuoted | literal
  deriving DecidableEq

/-- Line feed, carriage return, next line, line separator and paragraph separator. -/
def isBreak (c : Char) : Bool :=
  c == '\n' || c == '\r' || c.toNat == 0x85 || c.toNat == 0x2028 || c.toNat == 0x2029

/-- Whether a character can be shown without an escape. -/
def isPrintable (c : Char) : Bool :=
  let n := c.toNat
  n == 0x0A || (0x20 ≤ n && n ≤ 0x7E)
    || (0xA0 ≤ n && n != 0xFEFF && n != 0xFFFE && n != 0xFFFF)

/-- Whether what follows ends a word: a blank, a break, a null character or nothing. -/
def endsWord : List Char → Bool
  | [] => true
  | c :: _ => c == ' ' || c == '\t' || c.toNat == 0 || isBreak c

/-- What decides about the style of a string. -/
structure Traits where
  /-- Some character starts or ends a construct of the format. -/
  indicators : Bool
  /-- Some character needs an escape. -/
  special : Bool
  breaks : Bool
  leadingBlank : Bool
  trailingBlank : Bool
  trailingSpace : Bool
  breakThenSpace : Bool
  spaceThenBreak : Bool

namespace Traits

/-- Characters that cannot start a plain text. -/
def openers : List Char :=
  ['#', ',', '[', ']', '{', '}', '&', '*', '!', '|', '>', '\'', '"', '%', '@', '`']

/-- Whether a character at the start of a text, before `rest`, is an indicator. -/
def opensIndicator (c : Char) (rest : List Char) : Bool :=
  openers.contains c || ((c == '?' || c == ':' || c == '-') && endsWord rest)

/-- Whether some later character, the one before which is given, is an indicator. -/
def innerIndicator (before : Char) : List Char → Bool
  | [] => false
  | c :: rest =>
    (c == ':' && endsWord rest) || (c == '#' && endsWord [before]) || innerIndicator c rest

/-- Whether a text starts like a document marker. -/
def startsLikeMarker : List Char → Bool
  | a :: b :: c :: _ => a == b && b == c && (a == '-' || a == '.')
  | _ => false

/-- Whether some neighbours in a text are a pair of the two kinds. -/
def hasPair (first second : Char → Bool) : List Char → Bool
  | a :: b :: rest => (first a && second b) || hasPair first second (b :: rest)
  | _ => false

def isSpace (c : Char) : Bool := c == ' '

/-- A space or a break. -/
def isGap (c : Char) : Bool := isSpace c || isBreak c

/-- The traits of a text. -/
def ofChars (cs : List Char) : Traits where
  indicators := startsLikeMarker cs || (match cs with
    | [] => false
    | c :: rest => opensIndicator c rest || innerIndicator c rest)
  special := cs.any fun (c : Char) => !isPrintable c
  breaks := cs.any isBreak
  leadingBlank := cs.head?.any isGap
  trailingBlank := cs.getLast?.any isGap
  trailingSpace := cs.getLast?.any isSpace
  breakThenSpace := hasPair isBreak isSpace cs
  spaceThenBreak := hasPair isSpace isBreak cs

/-- Whether the text may stand without quotes. -/
def allowsPlain (t : Traits) : Bool :=
  !(t.indicators || t.special || t.breaks || t.leadingBlank || t.trailingBlank)

/-- Whether the text may stand between single quotes. -/
def allowsSingle (t : Traits) : Bool := !(t.special || t.breakThenSpace || t.spaceThenBreak)

/-- Whether the text may stand in a block. -/
def allowsBlock (t : Traits) : Bool := !(t.special || t.trailingSpace || t.spaceThenBreak)

end Traits

/-- The style of a string. A key that stands on the line of its value has no breaks. -/
def styleOf (s : String) : Style :=
  let cs := s.toList
  let t := Traits.ofChars cs
  if cs.contains '\n' then
    if t.allowsBlock then .literal else .doubleQuoted
  else if !isAmbiguous s && t.allowsPlain then .plain
  else if t.allowsSingle then .singleQuoted
  else .doubleQuoted

end Yaml

end BatchRun

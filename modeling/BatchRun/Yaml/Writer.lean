import BatchRun.Document.Json
import BatchRun.Yaml.Style

/-!
# Writing YAML

A document is written in block style, two spaces to a level, the items of an array that is a
member's value being no deeper than the member. Empty arrays and objects are written with their
brackets. A key that is long or has breaks is written after a question mark.

* `Yaml.layout`: the number layout of the format;
* `Yaml.scalar`: a string in the style that suits it;
* **`Document.toYaml`**.
-/

namespace BatchRun

namespace Yaml

/-- Powers of ten from `-5` to `15` are positional; a positive exponent has no sign. -/
def layout : Layout := ⟨-5, 16, ""⟩

/-- A run of spaces. -/
def spaces (n : Nat) : List Char := List.replicate n ' '

/-- A hexadecimal digit, upper case. -/
def upperHexDigit (n : Nat) : Char :=
  if n < 10 then Char.ofNat (48 + n) else Char.ofNat (55 + n)

/-- The last `k` hexadecimal digits of a number. -/
def hexDigits : Nat → Nat → List Char
  | 0, _ => []
  | k + 1, n => hexDigits k (n / 16) ++ [upperHexDigit (n % 16)]

/-- The letter that names an escaped character, for the characters that have one. -/
def escapeLetter? (n : Nat) : Option Char :=
  match n with
  | 0x00 => some '0'
  | 0x07 => some 'a'
  | 0x08 => some 'b'
  | 0x09 => some 't'
  | 0x0A => some 'n'
  | 0x0B => some 'v'
  | 0x0C => some 'f'
  | 0x0D => some 'r'
  | 0x1B => some 'e'
  | 0x22 => some '"'
  | 0x5C => some '\\'
  | 0x85 => some 'N'
  | 0xA0 => some '_'
  | 0x2028 => some 'L'
  | 0x2029 => some 'P'
  | _ => none

/-- What stands for a character between double quotes. -/
def escape (c : Char) : List Char :=
  if isPrintable c && !isBreak c && c != '"' && c != '\\' then [c]
  else
    match escapeLetter? c.toNat with
    | some l => ['\\', l]
    | none =>
      if c.toNat ≤ 0xFF then '\\' :: 'x' :: hexDigits 2 c.toNat
      else if c.toNat ≤ 0xFFFF then '\\' :: 'u' :: hexDigits 4 c.toNat
      else '\\' :: 'U' :: hexDigits 8 c.toNat

/-- Text between double quotes. -/
def doubleQuoted (cs : List Char) : List Char := '"' :: cs.flatMap escape ++ ['"']

/-- The characters of a single-quoted text up to the closing quote: quotes are doubled, and what
follows a break is indented. -/
def singleQuotedTail (indent : Nat) (afterBreak : Bool) : List Char → List Char
  | [] => if afterBreak then spaces indent ++ ['\''] else ['\'']
  | c :: rest =>
    if isBreak c then c :: singleQuotedTail indent true rest
    else
      (if afterBreak then spaces indent else []) ++ (if c = '\'' then ['\'', '\''] else [c])
        ++ singleQuotedTail indent false rest

/-- The lines of a literal block: what follows a break is indented, breaks stay as they are. -/
def literalBody (indent : Nat) (afterBreak : Bool) : List Char → List Char
  | [] => []
  | c :: rest =>
    if isBreak c then c :: literalBody indent true rest
    else if afterBreak then spaces indent ++ c :: literalBody indent false rest
    else c :: literalBody indent false rest

/-- How a reader of a literal block has to treat the breaks at its end. -/
def chomping (cs : List Char) : List Char :=
  match cs.reverse with
  | [] => ['-']
  | [c] => if isBreak c then ['+'] else ['-']
  | c :: d :: _ => if !isBreak c then ['-'] else if isBreak d then ['+'] else []

/-- The indentation mark of a literal block that starts with a space or a break. -/
def indentMark (cs : List Char) : List Char := if cs.head?.any Traits.isGap then ['2'] else []

/-- Text in a literal block. -/
def literal (indent : Nat) (cs : List Char) : List Char :=
  '|' :: indentMark cs ++ chomping cs ++ '\n' :: literalBody indent true cs

/-- A string in a style, its further lines being indented. -/
def styled (indent : Nat) (style : Style) (s : String) : List Char :=
  match style with
  | .plain => s.toList
  | .singleQuoted => '\'' :: singleQuotedTail indent false s.toList
  | .doubleQuoted => doubleQuoted s.toList
  | .literal => literal indent s.toList

/-- A string in the style that suits it. -/
def scalar (indent : Nat) (s : String) : List Char := styled indent (styleOf s) s

/-- A line ended by a line feed, unless it ends in a break already. -/
def closeLine (cs : List Char) : List Char :=
  if cs.getLast?.any isBreak then cs else cs ++ ['\n']

/-- Whether a key stands on the line of its value. -/
def isSimpleKey (key : String) : Bool := !key.toList.any isBreak && key.utf8ByteSize ≤ 128

/-- A key and its colon. -/
def blockKey (indent : Nat) (key : String) : List Char :=
  if isSimpleKey key then scalar (indent + 2) key ++ [':']
  else '?' :: ' ' :: closeLine (scalar (indent + 2) key) ++ spaces indent ++ [':']

/-- The rest of a line that holds a scalar or empty brackets. -/
def flat (indent : Nat) : Document → List Char
  | .null => "null\n".toList
  | .bool true => "true\n".toList
  | .bool false => "false\n".toList
  | .int i => Json.intChars i ++ ['\n']
  | .float x => (x.render layout).toList ++ ['\n']
  | .string s => closeLine (scalar indent s)
  | .array _ => "[]\n".toList
  | .object _ => "\x7b\x7d\n".toList

mutual

/-- What follows a dash, or the colon of a long key: blocks start on the same line, `inner` columns
deep. -/
def afterIndicator (inner : Nat) : Document → List Char
  | .array (x :: xs) => ' ' :: blockItems inner (x :: xs)
  | .object (m :: ms) => ' ' :: blockMembers inner (m :: ms)
  | d => ' ' :: flat inner d

/-- What follows the colon of a short key: blocks start on the next line. -/
def afterKey (indent : Nat) : Document → List Char
  | .array (x :: xs) => '\n' :: spaces indent ++ blockItems indent (x :: xs)
  | .object (m :: ms) => '\n' :: spaces (indent + 2) ++ blockMembers (indent + 2) (m :: ms)
  | d => ' ' :: flat (indent + 2) d

/-- The items of an array, the first of them standing at its column already. -/
def blockItems (indent : Nat) : List Document → List Char
  | [] => []
  | [x] => '-' :: afterIndicator (indent + 2) x
  | x :: y :: rest =>
    '-' :: afterIndicator (indent + 2) x ++ spaces indent ++ blockItems indent (y :: rest)

/-- A member, standing at its column already. -/
def blockMember (indent : Nat) : String × Document → List Char
  | (key, value) =>
    blockKey indent key ++
      (if isSimpleKey key then afterKey indent value else afterIndicator (indent + 2) value)

/-- The members of an object, the first of them standing at its column already. -/
def blockMembers (indent : Nat) : List (String × Document) → List Char
  | [] => []
  | [m] => blockMember indent m
  | m :: n :: rest => blockMember indent m ++ spaces indent ++ blockMembers indent (n :: rest)

end

/-- A whole document. -/
def block : Document → List Char
  | .array (x :: xs) => blockItems 0 (x :: xs)
  | .object (m :: ms) => blockMembers 0 (m :: ms)
  | d => flat 2 d

end Yaml

/-- The text of a document. -/
def Document.toYaml (d : Document) : String := String.ofList (Yaml.block d)

end BatchRun

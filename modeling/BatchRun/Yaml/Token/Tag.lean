import BatchRun.Yaml.Token
import BatchRun.Yaml.Cursor

/-!
# Reading directives, tags, anchors and aliases

* `Yaml.readDirective`: a line that starts with a percent sign;
* **`Yaml.readTag`**: a verbatim tag, or a handle and a suffix;
* `Yaml.readAnchorName`.
-/

namespace BatchRun

namespace Yaml

/-- Characters that a tag may hold besides letters, digits and hyphens. -/
def uriMarks : List Char := "#;/?:@&=+$,_.!~*'()[]%".toList

def isUriChar (c : Char) : Bool := (isNameChar c && c != '_') || uriMarks.contains c

/-- Characters of a tag that is not enclosed. -/
def isTagChar (c : Char) : Bool := isUriChar c && !isFlowMark c && c != '!'

/-- Characters of the name of an anchor. -/
def isAnchorChar (c : Char) : Bool := !(isWordEnd c || isFlowMark c || c.toNat == 0xFEFF)

/-! ## Escapes -/

/-- How many octets a code unit sequence has that starts with a given octet. -/
def octetCount? (octet : Nat) : Option Nat :=
  if octet < 0x80 then some 1
  else if octet / 32 = 6 then some 2
  else if octet / 16 = 14 then some 3
  else if octet / 8 = 30 then some 4
  else none

/-- An octet written as a percent sign and two hexadecimal digits. -/
def readOctet (p : Cursor) : Except Problem (Nat × Cursor) :=
  match p.head == '%', hexDigit? (p.peek 1), hexDigit? (p.peek 2) with
  | true, some a, some b => .ok (a * 16 + b, p.skipMany 3)
  | _, _, _ => .error .tagOctet

/-- Further octets of a character, put behind the ones that were read. -/
def readOctets : Nat → Nat → Cursor → Except Problem (Nat × Cursor)
  | 0, code, p => .ok (code, p)
  | n + 1, code, p => do
    let (octet, p) ← readOctet p
    if octet / 64 = 2 then readOctets n (code * 256 + octet) p else .error .tagTrailingOctet

/-- An escaped character. -/
def readUriEscape (p : Cursor) : Except Problem (Char × Cursor) := do
  let (octet, p) ← readOctet p
  match octetCount? octet with
  | none => .error .tagLeadingOctet
  | some n => do
    let (code, p) ← readOctets (n - 1) octet p
    if code < 0xD800 || (0xDFFF < code && code < 0x110000) then .ok (Char.ofNat code, p)
    else .error .tagCodePoint

/-- Characters of a class, escapes being resolved. -/
def readUri (accept : Char → Bool) : Nat → Cursor → Except Problem (List Char × Cursor)
  | 0, p => .ok ([], p)
  | fuel + 1, p =>
    if !accept p.head then .ok ([], p)
    else if p.head == '%' then do
      let (c, p) ← readUriEscape p
      let (cs, p) ← readUri accept fuel p
      .ok (c :: cs, p)
    else do
      let (cs, q) ← readUri accept fuel p.skip
      .ok (p.head :: cs, q)

/-! ## Tags -/

/-- The handle of a tag. A handle in a directive has to end in an exclamation mark. -/
def readHandle (inDirective : Bool) (p : Cursor) : Except Problem (List Char × Cursor) :=
  if p.head != '!' then .error .tagMark
  else
    let (name, q) := p.skip.word isNameChar
    if q.head == '!' then .ok ('!' :: name ++ ['!'], q.skip)
    else if inDirective && !name.isEmpty then .error .tagDirectiveMark
    else .ok ('!' :: name, q)

/-- A tag between angle brackets. -/
def readVerbatimTag (p : Cursor) : Except Problem (Token × Cursor) := do
  let (cs, q) ← readUri isUriChar p.rest.length (p.skipMany 2)
  if q.head == '>' then .ok (.tag "" (String.ofList cs), q.skip) else .error .verbatimTagEnd

/-- A tag of a handle and a suffix; a handle that is not closed belongs to the suffix. -/
def readShorthandTag (p : Cursor) : Except Problem (Token × Cursor) := do
  let (handle, p) ← readHandle false p
  let (cs, q) ← readUri isTagChar p.rest.length p
  if 2 ≤ handle.length ∧ handle.getLast? = some '!' then
    if cs.isEmpty then .error .tagUri
    else .ok (.tag (String.ofList handle) (String.ofList cs), q)
  else
    let suffix := handle.drop 1 ++ cs
    if suffix.isEmpty then .ok (.tag "" "!", q) else .ok (.tag "!" (String.ofList suffix), q)

/-- A tag. -/
def readTag (inFlow : Bool) (p : Cursor) : Except Problem (Token × Cursor) := do
  let (tag, q) ← if p.peek 1 == '<' then readVerbatimTag p else readShorthandTag p
  if isWordEnd q.head || (inFlow && isFlowMark q.head) then .ok (tag, q) else .error .tagEnd

/-- The name of an anchor or an alias, after its mark. -/
def readAnchorName (p : Cursor) : Except Problem (String × Cursor) :=
  match p.skip.word isAnchorChar with
  | ([], _) => .error .anchorName
  | (cs, q) => .ok (String.ofList cs, q)

/-! ## Directives -/

/-- A number of a version: one to nine digits. -/
def readVersionNumber (p : Cursor) : Except Problem Cursor :=
  let (ds, q) := p.word isDecimalDigit
  if ds.isEmpty then .error .versionNumber
  else if 9 < ds.length then .error .versionTooLong
  else .ok q

/-- A version directive, after its name. -/
def readVersion (p : Cursor) : Except Problem (Token × Cursor) := do
  let p ← readVersionNumber p.skipBlanks
  if p.head != '.' then .error .versionSeparator
  else do
    let p ← readVersionNumber p.skip
    .ok (.versionDirective, p)

/-- What a tag directive puts for its handle. -/
def readTagLead (p : Cursor) : Except Problem (List Char × Cursor) :=
  if p.head == '!' then do
    let (cs, q) ← readUri isUriChar p.rest.length p.skip
    .ok ('!' :: cs, q)
  else if !isTagChar p.head then .error .tagLead
  else readUri isUriChar p.rest.length p

/-- A tag directive, after its name. -/
def readTagDirective (p : Cursor) : Except Problem (Token × Cursor) := do
  let (handle, p) ← readHandle true p.skipBlanks
  let (lead, p) ← readTagLead p.skipBlanks
  if isWordEnd p.head then
    .ok (.tagDirective (String.ofList handle) (String.ofList lead), p)
  else .error .tagDirectiveEnd

/-- A directive with the break that ends its line. A directive of an unknown name is read as one
that declares nothing. -/
def readDirective (p : Cursor) : Except Problem (Token × Cursor) := do
  let (name, p) := p.skip.word isNameChar
  if name.isEmpty then .error .directiveName
  else if !isWordEnd p.head then .error .directiveNameChar
  else do
    let (token, p) ← if name = "YAML".toList then readVersion p
      else if name = "TAG".toList then readTagDirective p
      else .ok (.tagDirective "" "", p.skipComment)
    let p ← p.finishLine
    if isLineEnd p.head then .ok (token, p.skipBreak) else .error .directiveEnd

end Yaml

end BatchRun

import BatchRun.Document.Json

/-!
# Reading JSON text

`Json.parse` reads one document. A number without point and exponent that fits 64 bits, signed or
unsigned, is an integer and any other number a double; a repeated key overwrites the earlier value
in place. A failure is a cause and the place where it was noticed.

* `Json.Cause`, `Json.Failure.message`;
* **`Json.parse`**, and `Json.parse?` for callers that do not ask for the reason.
-/

namespace BatchRun

namespace Json

/-- Why a text is not a JSON document. -/
inductive Cause where
  | endInList | endInObject | endInString | endInValue
  | expectedColon | expectedListEnd | expectedObjectEnd
  | expectedIdent | expectedValue | keyNotString
  | invalidEscape | invalidNumber | outOfRange | invalidCodePoint | controlCharacter
  | loneSurrogate | trailingComma | trailingCharacters | tooDeep
  deriving DecidableEq

/-- The wording of a cause. -/
def Cause.message : Cause → String
  | .endInList => "EOF while parsing a list"
  | .endInObject => "EOF while parsing an object"
  | .endInString => "EOF while parsing a string"
  | .endInValue => "EOF while parsing a value"
  | .expectedColon => "expected `:`"
  | .expectedListEnd => "expected `,` or `]`"
  | .expectedObjectEnd => "expected `,` or `\x7d`"
  | .expectedIdent => "expected ident"
  | .expectedValue => "expected value"
  | .keyNotString => "key must be a string"
  | .invalidEscape => "invalid escape"
  | .invalidNumber => "invalid number"
  | .outOfRange => "number out of range"
  | .invalidCodePoint => "invalid unicode code point"
  | .controlCharacter => "control character (\\u0000-\\u001F) found while parsing a string"
  | .loneSurrogate => "lone leading surrogate in hex escape"
  | .trailingComma => "trailing comma"
  | .trailingCharacters => "trailing characters"
  | .tooDeep => "recursion limit exceeded"

/-- Whether the text merely stopped too early. -/
def Cause.isEnd : Cause → Bool
  | .endInList | .endInObject | .endInString | .endInValue => true
  | _ => false

/-- A cause, and the characters that were left when it was noticed. -/
structure Failure where
  cause : Cause
  rest : List Char

/-! A reading step answers the value and the characters after it. -/

def fail {α : Type} (cause : Cause) (rest : List Char) : Except Failure (α × List Char) :=
  .error ⟨cause, rest⟩

/-- The failure one character further on: the character that was looked at counts as read. -/
def failPast {α : Type} (cause : Cause) (rest : List Char) : Except Failure (α × List Char) :=
  fail cause (rest.drop 1)

def isBlank (c : Char) : Bool := c = ' ' || c = '\n' || c = '\t' || c = '\r'

def skipBlanks (cs : List Char) : List Char := cs.dropWhile isBlank

/-- The value of a hexadecimal digit. -/
def hexValue? (c : Char) : Option Nat :=
  if '0' ≤ c ∧ c ≤ '9' then some (c.toNat - 48)
  else if 'a' ≤ c ∧ c ≤ 'f' then some (c.toNat - 87)
  else if 'A' ≤ c ∧ c ≤ 'F' then some (c.toNat - 55)
  else none

/-- Four hexadecimal digits. -/
def readHex4 : List Char → Except Failure (Nat × List Char)
  | a :: b :: c :: d :: rest =>
    match hexValue? a, hexValue? b, hexValue? c, hexValue? d with
    | some a, some b, some c, some d => .ok (((a * 16 + b) * 16 + c) * 16 + d, rest)
    | _, _, _, _ => fail .invalidEscape rest
  | _ => fail .endInString []

/-- The character of an escape, the backslash having been read. -/
def readEscape : List Char → Except Failure (Char × List Char)
  | [] => fail .endInString []
  | 'u' :: rest => do
    let (unit, rest) ← readHex4 rest
    if 0xDC00 ≤ unit ∧ unit ≤ 0xDFFF then fail .loneSurrogate rest
    else if 0xD800 ≤ unit ∧ unit ≤ 0xDBFF then
      match rest with
      | '\\' :: 'u' :: rest =>
        let (low, rest) ← readHex4 rest
        if 0xDC00 ≤ low ∧ low ≤ 0xDFFF then
          .ok (Char.ofNat (0x10000 + (unit - 0xD800) * 0x400 + (low - 0xDC00)), rest)
        else fail .loneSurrogate rest
      | _ => fail .loneSurrogate (rest.drop 1)
    else .ok (Char.ofNat unit, rest)
  | c :: rest =>
    if c = '"' ∨ c = '\\' ∨ c = '/' then .ok (c, rest)
    else if c = 'b' then .ok (Char.ofNat 8, rest)
    else if c = 'f' then .ok (Char.ofNat 12, rest)
    else if c = 'n' then .ok ('\n', rest)
    else if c = 'r' then .ok ('\r', rest)
    else if c = 't' then .ok ('\t', rest)
    else fail .invalidEscape rest

/-- The rest of a string, the opening quote having been read. -/
def readString (fuel : Nat) (seen : List Char) (cs : List Char) :
    Except Failure (String × List Char) :=
  match fuel, cs with
  | 0, _ => fail .endInString []
  | _, [] => fail .endInString []
  | fuel + 1, c :: rest =>
    if c = '"' then .ok (String.ofList seen.reverse, rest)
    else if c = '\\' then do
      let (c, rest) ← readEscape rest
      readString fuel (c :: seen) rest
    else if c.toNat < 32 then fail .controlCharacter rest
    else readString fuel (c :: seen) rest

/-- The number that a run of digits stands for. -/
def digitsValue (ds : List Char) : Nat :=
  ds.foldl (fun (n : Nat) (c : Char) => n * 10 + (c.toNat - 48)) 0

def isDigit (c : Char) : Bool := '0' ≤ c && c ≤ '9'

/-- The digits after a point or an exponent mark, of which there must be one. -/
def readDigits (cs : List Char) : Except Failure (List Char × List Char) :=
  match cs with
  | [] => fail .endInValue []
  | c :: _ => if isDigit c then .ok (cs.span isDigit) else failPast .invalidNumber cs

/-- An exponent, its mark having been read. -/
def readExponent (cs : List Char) : Except Failure (Int × List Char) :=
  match cs with
  | '-' :: rest => do
    let (ds, rest) ← readDigits rest
    .ok (-(digitsValue ds : Int), rest)
  | '+' :: rest => do
    let (ds, rest) ← readDigits rest
    .ok ((digitsValue ds : Int), rest)
  | _ => do
    let (ds, rest) ← readDigits cs
    .ok ((digitsValue ds : Int), rest)

/-- The double of a sign, digits and an exponent of ten. -/
def floatStep (negative : Bool) (digits : Nat) (exponent : Int) (rest : List Char) :
    Except Failure (Document × List Char) :=
  match Binary64.ofDecimal? negative digits exponent with
  | some x => .ok (.float x, rest)
  | none => fail .outOfRange rest

/-- An integer, or the double nearest to it when it does not fit 64 bits. A negative zero is a
double. -/
def integerStep (negative : Bool) (digits : Nat) (rest : List Char) :
    Except Failure (Document × List Char) :=
  if negative then
    if digits ≠ 0 ∧ digits ≤ Nat.pow 2 63 then .ok (.int (-(digits : Int)), rest)
    else floatStep true digits 0 rest
  else if digits < Nat.pow 2 64 then .ok (.int digits, rest)
  else floatStep false digits 0 rest

/-- A number without its sign. -/
def readMagnitude (negative : Bool) (cs : List Char) : Except Failure (Document × List Char) :=
  match cs with
  | [] => fail .endInValue []
  | c :: _ =>
    if !isDigit c then failPast .invalidNumber cs
    else
      let (whole, rest) := cs.span isDigit
      if whole.length > 1 ∧ c = '0' then fail .invalidNumber (cs.drop 2)
      else
        match rest with
        | '.' :: rest => do
          let (part, rest) ← readDigits rest
          let digits := digitsValue (whole ++ part)
          match rest with
          | e :: rest' =>
            if e = 'e' ∨ e = 'E' then do
              let (x, rest) ← readExponent rest'
              floatStep negative digits (x - part.length) rest
            else floatStep negative digits (-(part.length : Int)) rest
          | [] => floatStep negative digits (-(part.length : Int)) rest
        | e :: rest' =>
          if e = 'e' ∨ e = 'E' then do
            let (x, rest) ← readExponent rest'
            floatStep negative (digitsValue whole) x rest
          else integerStep negative (digitsValue whole) rest
        | [] => integerStep negative (digitsValue whole) rest

/-- One of the words `null`, `true` and `false`, its first letter having been read. -/
def readWord (word : List Char) (value : Document) :
    List Char → Except Failure (Document × List Char)
  | cs =>
    match word, cs with
    | [], rest => .ok (value, rest)
    | _, [] => fail .endInValue []
    | w :: word, c :: rest =>
      if w = c then readWord word value rest else fail .expectedIdent rest

mutual

/-- A value, nested at most `depth` deep. -/
def readValue (fuel depth : Nat) (cs : List Char) : Except Failure (Document × List Char) :=
  match fuel with
  | 0 => fail .endInValue []
  | fuel + 1 =>
    match skipBlanks cs with
    | [] => fail .endInValue []
    | 'n' :: rest => readWord ['u', 'l', 'l'] .null rest
    | 't' :: rest => readWord ['r', 'u', 'e'] (.bool true) rest
    | 'f' :: rest => readWord ['a', 'l', 's', 'e'] (.bool false) rest
    | '-' :: rest => readMagnitude true rest
    | '"' :: rest => do
      let (s, rest) ← readString (rest.length + 1) [] rest
      .ok (.string s, rest)
    | '[' :: rest =>
      match depth with
      | 0 => fail .tooDeep rest
      | depth + 1 =>
        match skipBlanks rest with
        | ']' :: rest => .ok (.array [], rest)
        | rest => readItems fuel depth [] rest
    | '{' :: rest =>
      match depth with
      | 0 => fail .tooDeep rest
      | depth + 1 =>
        match skipBlanks rest with
        | '}' :: rest => .ok (.object [], rest)
        | rest => readMembers fuel depth [] rest
    | c :: rest =>
      if isDigit c then readMagnitude false (c :: rest) else failPast .expectedValue (c :: rest)

/-- Items up to the closing bracket, of which one is still to come. -/
def readItems (fuel depth : Nat) (seen : List Document) (cs : List Char) :
    Except Failure (Document × List Char) :=
  match fuel with
  | 0 => fail .endInList []
  | fuel + 1 =>
    match skipBlanks cs with
    | [] => fail .endInList []
    | cs => do
      let (item, rest) ← readValue fuel depth cs
      match skipBlanks rest with
      | [] => fail .endInList []
      | ']' :: rest => .ok (.array (item :: seen).reverse, rest)
      | ',' :: rest =>
        match skipBlanks rest with
        | ']' :: rest => failPast .trailingComma (']' :: rest)
        | [] => fail .endInValue []
        | rest => readItems fuel depth (item :: seen) rest
      | rest => failPast .expectedListEnd rest

/-- Members up to the closing brace, of which one is still to come. -/
def readMembers (fuel depth : Nat) (seen : Members) (cs : List Char) :
    Except Failure (Document × List Char) :=
  match fuel with
  | 0 => fail .endInObject []
  | fuel + 1 =>
    match skipBlanks cs with
    | [] => fail .endInObject []
    | '"' :: rest => do
      let (key, rest) ← readString (rest.length + 1) [] rest
      match skipBlanks rest with
      | [] => fail .endInObject []
      | ':' :: rest => do
        let (value, rest) ← readValue fuel depth rest
        let seen := (key, value) :: seen
        match skipBlanks rest with
        | [] => fail .endInObject []
        | '}' :: rest => .ok (.ofPairs seen.reverse, rest)
        | ',' :: rest =>
          match skipBlanks rest with
          | '}' :: rest => failPast .trailingComma ('}' :: rest)
          | [] => fail .endInValue []
          | rest => readMembers fuel depth seen rest
        | rest => failPast .expectedObjectEnd rest
      | rest => failPast .expectedColon rest
    | rest => failPast .keyNotString rest

end

/-- How deep arrays and objects may be nested. -/
def depthLimit : Nat := 127

/-- Reads one document and nothing after it but blanks. -/
def parse (text : String) : Except Failure Document := do
  let cs := text.toList
  let (d, rest) ← readValue (2 * cs.length + 2) depthLimit cs
  match skipBlanks rest with
  | [] => .ok d
  | rest => .error ⟨.trailingCharacters, rest.drop 1⟩

/-- The line, counted from one, and the column in bytes that a prefix of a text ends at. -/
def position (read : List Char) : Nat × Nat :=
  read.foldl (fun (p : Nat × Nat) (c : Char) =>
    if c = '\n' then (p.1 + 1, 0) else (p.1, p.2 + c.utf8Size)) (1, 0)

/-- The wording of a failure while reading `text`, with its line and column. -/
def Failure.message (text : String) (f : Failure) : String :=
  let cs := text.toList
  let (line, column) := position (cs.take (cs.length - f.rest.length))
  s!"{f.cause.message} at line {line} column {column}"

/-- The document that a text holds, if it is one. -/
def parse? (text : String) : Option Document := (parse text).toOption

end Json

end BatchRun

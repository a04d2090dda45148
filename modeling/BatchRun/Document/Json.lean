import BatchRun.Document.Basic
import BatchRun.Decimal.Shortest

/-!
# Compact JSON text

The compact form has no blanks, keeps the order of members, writes a double with a point or an
exponent so that it never reads as an integer, and escapes quotes, backslashes and controls only.

* `Json.layout`: the number layout of the format;
* `Json.quote`: a string between quotes;
* `Document.toJson`: **the text of a document**.
-/

namespace BatchRun

namespace Json

/-- Powers of ten from `-5` to `15` are positional; a positive exponent carries its sign. -/
def layout : Layout := ⟨-5, 16, "+"⟩

/-- A hexadecimal digit, lower case. -/
def hexDigit (n : Nat) : Char :=
  if n < 10 then Char.ofNat (48 + n) else Char.ofNat (87 + n)

/-- What stands for a character inside quotes. -/
def escape (c : Char) : List Char :=
  if c = '"' then ['\\', '"']
  else if c = '\\' then ['\\', '\\']
  else if c = '\n' then ['\\', 'n']
  else if c = '\r' then ['\\', 'r']
  else if c = '\t' then ['\\', 't']
  else if c.toNat = 8 then ['\\', 'b']
  else if c.toNat = 12 then ['\\', 'f']
  else if c.toNat < 32 then
    ['\\', 'u', '0', '0', hexDigit (c.toNat / 16), hexDigit (c.toNat % 16)]
  else [c]

/-- A string between quotes. -/
def quote (s : String) : List Char :=
  '"' :: s.toList.flatMap escape ++ ['"']

/-- The decimal text of an integer. -/
def intChars (i : Int) : List Char :=
  if i < 0 then '-' :: Nat.toDigits 10 i.natAbs else Nat.toDigits 10 i.natAbs

mutual

/-- The compact text of a document. -/
def chars : Document → List Char
  | .null => "null".toList
  | .bool true => "true".toList
  | .bool false => "false".toList
  | .int i => intChars i
  | .float x => (x.render layout).toList
  | .string s => quote s
  | .array xs => '[' :: itemChars xs ++ [']']
  | .object ms => '{' :: memberChars ms ++ ['}']

/-- Items, with commas between them. -/
def itemChars : List Document → List Char
  | [] => []
  | [x] => chars x
  | x :: y :: rest => chars x ++ ',' :: itemChars (y :: rest)

/-- Members, with commas between them. -/
def memberChars : List (String × Document) → List Char
  | [] => []
  | [(k, v)] => quote k ++ ':' :: chars v
  | (k, v) :: q :: rest => quote k ++ ':' :: chars v ++ ',' :: memberChars (q :: rest)

end

end Json

/-- The compact text of a document. -/
def Document.toJson (d : Document) : String := String.ofList (Json.chars d)

end BatchRun
